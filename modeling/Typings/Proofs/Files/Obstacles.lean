import Typings.Proofs.Files.Directories
import Typings.Proofs.Files.Spelling
import Typings.Proofs.Outcome
import Typings.Proofs.Output.Accumulator

/-!
# `Obstacles` — files in memory that cannot all be written

A store that keeps files in memory may refuse to make some directories and to write some files, always the
same ones.  A refused write leaves the texts as they are; the directories above its file are there after it,
since a write makes them first, or they are not, in a store that refuses at once.

What one file leaves of a memory is said place by place, for texts and for directories, and so is what some
files leave that are put one after the other.  Nothing of this depends on their order but for one thing
(`Obstacles.Torn`): whether a place is a directory that one file takes and of which only files would make a
directory that are refused at once.  There the order does show: the place is a directory if one of the
refused files comes first (`contains_putAll_cons`), and none if the file does that takes it
(`not_contains_putAll_cons`).

* `Obstacles`, `Files.Obstructed`: what is refused, and the stores that refuse just this.
* `Obstacles.put`, `Obstacles.putAll`: a file is put at its place, and some files one after the other.
* `fst_put`, `get?_after`, `contains_after`, `closed_after`: what one step does.
* `Obstacles.Torn`: where the order shows; `not_torn`: files with which it shows nowhere.
* `get?_putAll`, `contains_putAll`: what a run does; `putAll_perm`: in any order.
-/

namespace Typings.Files

open Accumulator (lastAt? lastAt?_cons lastAt?_eq_none lastAt?_of_mem lastAt?_perm)

variable {σ : Type} {m : Memory} {f g : OutputFile} {p q : Path}

/-- What stands in the way of writing. -/
structure Obstacles where
  /-- Why a directory cannot be made. -/
  directory : Path → Option StoreError := fun _ => none
  /-- Why a file cannot be written. -/
  file : Path → Option StoreError := fun _ => none
  /-- The directories above a file that cannot be written are made nevertheless. -/
  makes : Path → Bool := fun _ => true

namespace Obstacles

variable {o : Obstacles}

/-- Makes a directory if nothing stands in the way. -/
def createDirs (o : Obstacles) (dir : Path) : StoreM Memory Unit := fun m =>
  match o.directory dir with
  | some e => .error e m
  | none => .ok () (m.createDirs dir)

/-- Writes a file if nothing stands in the way. -/
def write (o : Obstacles) (p : Path) (t : Text) : StoreM Memory Unit := fun m =>
  match o.directory p.parentDir with
  | some e => .error e m
  | none =>
    match o.file p with
    | some e => .error e (if o.makes p then { m with dirs := Memory.withAncestors m.dirs p } else m)
    | none => .ok () (m.insert p t)

/-- Files in memory with obstacles. -/
def store (o : Obstacles) : FileStore Memory :=
  { Memory.store with write := o.write, createDirs := o.createDirs }

end Obstacles

/-- The store acts as files in memory do, but for the obstacles. -/
structure Obstructed (s : FileStore σ) (memory : σ → Memory) (o : Obstacles) : Prop where
  isThere : ∀ w p, s.isThere w p = (memory w).isThere p
  createDirs : ∀ dir w,
    (outcome (s.createDirs dir w)).map id memory = outcome (o.createDirs dir (memory w))
  write : ∀ p t w, (outcome (s.write p t w)).map id memory = outcome (o.write p t (memory w))

/-- The store in memory with its obstacles is obstructed by them. -/
theorem obstructed_store (o : Obstacles) : Obstructed o.store id o where
  isThere _ _ := rfl
  createDirs _ _ := rfl
  write _ _ _ := rfl

/-- Nothing stands in the way of files that are only kept in memory. -/
theorem obstructed_memory : Obstructed Memory.store id {} where
  isThere _ _ := rfl
  createDirs _ _ := rfl
  write _ _ _ := rfl

namespace Obstacles

variable {o : Obstacles}

/-! ## One file -/

/-- Puts a file at its place, with its directory if that is not there. -/
def put (o : Obstacles) (f : OutputFile) : StoreM Memory Unit := do
  if !(← get).isThere f.path.parentDir then o.createDirs f.path.parentDir
  o.write f.path f.content

/-- What stands in the way of a file. -/
def against? (o : Obstacles) (f : OutputFile) : Option StoreError :=
  (o.directory f.path.parentDir).or (o.file f.path)

/-- Nothing is against a file when neither its directory nor the file itself is refused. -/
theorem against?_eq_none_iff :
    o.against? f = none ↔ o.directory f.path.parentDir = none ∧ o.file f.path = none := by
  rw [against?, Option.or_eq_none_iff]

/-- The memory in which the directory of a file is there, be it as a file. -/
def prepared (m : Memory) (f : OutputFile) : Memory :=
  if m.isThere f.path.parentDir then m else m.createDirs f.path.parentDir

theorem files_prepared (m : Memory) (f : OutputFile) : (prepared m f).files = m.files := by
  unfold prepared
  split <;> rfl

/-- The preparation makes the directories above the file, if they are not there. -/
theorem contains_prepared (hm : m.Closed) (f : OutputFile) (q : Path) :
    (prepared m f).dirs.contains q = (m.dirs.contains q ||
      decide (m.isThere f.path.parentDir = false ∧
        (f.path.parentDir.same q = true ∨ q.Above f.path.parentDir))) := by
  unfold prepared
  by_cases hthere : m.isThere f.path.parentDir = true
  · rw [if_pos hthere, decide_eq_false fun h => absurd (hthere.symm.trans h.1) (by decide), Bool.or_false]
  · rw [if_neg hthere, Memory.contains_dirs_createDirs hm,
      decide_eq_decide.mpr (and_iff_right (by simpa using hthere)), Bool.decide_or, Bool.decide_eq_true]

theorem closed_prepared (hm : m.Closed) (f : OutputFile) : (prepared m f).Closed := by
  unfold prepared
  split
  · exact hm
  · exact hm.createDirs _

theorem put_of_there (h : m.isThere f.path.parentDir = true) :
    o.put f m = o.write f.path f.content m := by
  show (if !m.isThere f.path.parentDir then _ else _ : StoreM Memory Unit) m = _
  rw [h]
  rfl

theorem put_of_not_there (h : m.isThere f.path.parentDir = false) :
    o.put f m = (o.createDirs f.path.parentDir >>= fun _ => o.write f.path f.content) m := by
  show (if !m.isThere f.path.parentDir then _ else _ : StoreM Memory Unit) m = _
  rw [h]
  rfl

/-- Where the directory cannot be made, nothing is changed. -/
theorem put_of_directory {e : StoreError} (h : o.directory f.path.parentDir = some e) (m : Memory) :
    outcome (o.put f m) = (.error e, m) := by
  by_cases hthere : m.isThere f.path.parentDir = true
  · rw [put_of_there hthere, write, h]
    rfl
  · rw [put_of_not_there (by simpa using hthere)]
    refine outcome_bind_error ?_
    rw [createDirs, h]
    rfl

/-- Else the directory is there when the file is written. -/
theorem put_eq_write (h : o.directory f.path.parentDir = none) (m : Memory) :
    outcome (o.put f m) = outcome (o.write f.path f.content (prepared m f)) := by
  by_cases hthere : m.isThere f.path.parentDir = true
  · rw [put_of_there hthere, prepared, if_pos hthere]
  · rw [put_of_not_there (by simpa using hthere), prepared, if_neg hthere]
    refine outcome_bind_ok (a := ()) ?_
    rw [createDirs, h]
    rfl

/-- A refused file leaves the preparation and what the refusal itself makes. -/
theorem put_of_file {e : StoreError} (hdir : o.directory f.path.parentDir = none)
    (hfile : o.file f.path = some e) (m : Memory) :
    outcome (o.put f m) = (.error e, if o.makes f.path
      then { prepared m f with dirs := Memory.withAncestors (prepared m f).dirs f.path }
      else prepared m f) := by
  rw [put_eq_write hdir, write, hdir, hfile]
  rfl

/-- A file with nothing against it is written. -/
theorem put_of_free (h : o.against? f = none) (m : Memory) :
    outcome (o.put f m) = (.ok (), (prepared m f).insert f.path f.content) := by
  obtain ⟨hdir, hfile⟩ := against?_eq_none_iff.mp h
  rw [put_eq_write hdir, write, hdir, hfile]
  rfl

/-- A file is put or not, whatever the memory. -/
theorem fst_put (o : Obstacles) (f : OutputFile) (m : Memory) :
    (outcome (o.put f m)).1 = match o.against? f with
      | some e => .error e
      | none => .ok () := by
  cases hdir : o.directory f.path.parentDir with
  | some e => rw [put_of_directory hdir, against?, hdir, Option.some_or]
  | none =>
      cases hfile : o.file f.path with
      | some e => rw [put_of_file hdir hfile, against?, hdir, hfile, Option.none_or]
      | none =>
          have hfree : o.against? f = none := against?_eq_none_iff.mpr ⟨hdir, hfile⟩
          rw [put_of_free hfree, hfree]

/-- The memory after a file was put or not. -/
def after (o : Obstacles) (f : OutputFile) (m : Memory) : Memory := (outcome (o.put f m)).2

/-- A write changes its own place and only when nothing is against it. -/
theorem get?_after (o : Obstacles) (f : OutputFile) (m : Memory) (q : Path) :
    (o.after f m).files.get? q
      = if o.against? f = none ∧ f.path.same q = true then some f.content else m.files.get? q := by
  cases hdir : o.directory f.path.parentDir with
  | some e =>
      have hnot : o.against? f ≠ none := by simp [against?, hdir]
      rw [after, put_of_directory hdir, if_neg fun h => hnot h.1]
  | none =>
      cases hfile : o.file f.path with
      | some e =>
          have hnot : o.against? f ≠ none := by simp [against?, hdir, hfile]
          rw [if_neg fun h => hnot h.1, after, put_of_file hdir hfile, ← files_prepared m f]
          dsimp only
          split <;> rfl
      | none =>
          have hfree : o.against? f = none := against?_eq_none_iff.mpr ⟨hdir, hfile⟩
          rw [after, put_of_free hfree, Memory.insert, PathMap.get?_insert, files_prepared]
          simp only [hfree, true_and]

/-- The directories that a file brings: its own with those above it if that is not there, and those above
    the file. -/
def Brings (o : Obstacles) (m : Memory) (f : OutputFile) (q : Path) : Prop :=
  o.directory f.path.parentDir = none ∧
    (m.isThere f.path.parentDir = false ∧ (f.path.parentDir.same q = true ∨ q.Above f.path.parentDir) ∨
      (o.file f.path = none ∨ o.makes f.path = true) ∧ q.Above f.path)

instance : Decidable (o.Brings m f q) := inferInstanceAs (Decidable (_ ∧ _))

/-- What is above a directory that a file brings is brought too. -/
theorem Brings.above {b : Path} (h : o.Brings m f q) (hb : b.Above q) : o.Brings m f b := by
  refine ⟨h.1, h.2.imp (fun ⟨hthere, hq⟩ => ⟨hthere, .inr ?_⟩) fun ⟨hmade, hq⟩ => ⟨hmade, hb.trans hq⟩⟩
  rcases hq with hs | ha
  · exact (Path.above_congr hs b).mpr hb
  · exact hb.trans ha

/-- A file at the empty path lies in that path itself, so it brings it as its own directory. -/
theorem brings_of_eq_nil (hdir : o.directory f.path.parentDir = none) (hplace : f.path.same q = true)
    (hempty : q.components = []) (hthere : m.isThere f.path.parentDir = false) : o.Brings m f q := by
  have hown := Path.components_parentDir_of_eq_nil ((Path.same_iff.mp hplace).trans hempty)
  exact ⟨hdir, .inl ⟨hthere, .inl (Path.same_iff.mpr (hown.trans hempty.symm))⟩⟩

theorem brings_congr (h : p.same q = true) : o.Brings m f p ↔ o.Brings m f q := by
  unfold Brings
  rw [Path.above_congr_left h, Path.above_congr_left h, Path.same_comm _ p, Path.same_comm _ q,
    Path.same_congr h]

/-- A write adds the directories it brings and no other. -/
theorem contains_after (hm : m.Closed) (o : Obstacles) (f : OutputFile) (q : Path) :
    (o.after f m).dirs.contains q = (m.dirs.contains q || decide (o.Brings m f q)) := by
  have hprepared := contains_prepared hm f q
  have habove : (Memory.withAncestors (prepared m f).dirs f.path).contains q
      = ((prepared m f).dirs.contains q || decide (q.Above f.path)) :=
    Memory.contains_withAncestors ((closed_prepared hm f).gapless _) q
  cases hdir : o.directory f.path.parentDir with
  | some e =>
      have hnone : ¬ o.Brings m f q := fun h => nomatch hdir.symm.trans h.1
      rw [after, put_of_directory hdir, decide_eq_false hnone, Bool.or_false]
  | none =>
      cases hfile : o.file f.path with
      | some e =>
          rw [after, put_of_file hdir hfile]
          dsimp only
          by_cases hmakes : o.makes f.path = true
          · rw [if_pos hmakes, habove, hprepared, Bool.or_assoc, ← Bool.decide_or]
            congr 1
            simp only [Brings, hdir, hmakes, or_true, true_and]
          · rw [if_neg hmakes, hprepared]
            congr 1
            simp only [Brings, hdir, hfile, hmakes, reduceCtorEq, or_self, false_and, or_false, true_and]
      | none =>
          rw [after, put_of_free (against?_eq_none_iff.mpr ⟨hdir, hfile⟩), Memory.insert, habove, hprepared,
            Bool.or_assoc, ← Bool.decide_or]
          congr 1
          simp only [Brings, hdir, hfile, true_or, true_and]

/-- A write keeps the store closed upward. -/
theorem closed_after (hm : m.Closed) (o : Obstacles) (f : OutputFile) : (o.after f m).Closed :=
  hm.of_contains (contains_after hm o f) fun _ _ ha hb => ha.above hb

/-! ## Some files -/

/-- Puts some files at their places, one after the other. -/
def putAll (o : Obstacles) (fs : List OutputFile) (m : Memory) : Memory :=
  fs.foldl (fun m f => o.after f m) m

theorem putAll_cons (o : Obstacles) (f : OutputFile) (fs : List OutputFile) (m : Memory) :
    o.putAll (f :: fs) m = o.putAll fs (o.after f m) := rfl

/-- The files that nothing stands in the way of. -/
def free (o : Obstacles) (fs : List OutputFile) : List OutputFile :=
  fs.filter fun f => decide (o.against? f = none)

theorem mem_free {fs : List OutputFile} : f ∈ o.free fs ↔ f ∈ fs ∧ o.against? f = none := by
  rw [free, List.mem_filter, decide_eq_true_iff]

/-- At each place is the last text that was put there, if any was. -/
theorem get?_putAll (o : Obstacles) (fs : List OutputFile) (m : Memory) (q : Path) :
    (o.putAll fs m).files.get? q = (lastAt? (o.free fs) q).or (m.files.get? q) := by
  induction fs generalizing m with
  | nil => rfl
  | cons f fs ih =>
      rw [putAll_cons, ih, get?_after]
      by_cases hfree : o.against? f = none
      · have hfirst : o.free (f :: fs) = f :: o.free fs := List.filter_cons_of_pos (decide_eq_true hfree)
        rw [hfirst, lastAt?_cons, Option.or_assoc]
        cases f.path.same q <;> simp [hfree]
      · have hfirst : o.free (f :: fs) = o.free fs := List.filter_cons_of_neg (by simpa using hfree)
        rw [hfirst, if_neg fun h => hfree h.1]

/-- Of files at different places each that is not refused holds its text in the end. -/
theorem get?_putAll_of_mem {fs : List OutputFile} (h : fs.Pairwise fun f g => f.path.same g.path = false)
    (hf : f ∈ fs) (hfree : o.against? f = none) (m : Memory) :
    (o.putAll fs m).files.get? f.path = some f.content := by
  have hfree' : (o.free fs).Pairwise fun f g => f.path.same g.path = false := h.filter _
  rw [get?_putAll, lastAt?_of_mem hfree' (mem_free.mpr ⟨hf, hfree⟩) (Path.same_self _), Option.some_or]

/-- A place that no free file has keeps its text. -/
theorem get?_putAll_of_forall {fs : List OutputFile}
    (h : ∀ f ∈ fs, o.against? f = none → f.path.same q = false) (m : Memory) :
    (o.putAll fs m).files.get? q = m.files.get? q := by
  rw [get?_putAll, lastAt?_eq_none fun f hf => h f (mem_free.mp hf).1 (mem_free.mp hf).2, Option.none_or]

/-- The write of the file is refused before the directories above it are made. -/
def RefusedAtOnce (o : Obstacles) (g : OutputFile) : Prop := o.file g.path ≠ none ∧ o.makes g.path = false

/-- A file that is refused at once brings at most its own directory, with those above it, and that only if
    the directory is not there. -/
theorem Brings.isThere_eq_false (h : o.Brings m g q) (hrefused : o.RefusedAtOnce g) :
    m.isThere g.path.parentDir = false := by
  rcases h.2 with ⟨hthere, -⟩ | ⟨hfile | hmakes, -⟩
  · exact hthere
  · exact absurd hfile hrefused.1
  · exact nomatch hmakes.symm.trans hrefused.2

/-- One file takes a place that another one, which is refused at once, needs as its directory. -/
def Tears (o : Obstacles) (f g : OutputFile) (q : Path) : Prop :=
  (o.against? f = none ∧ f.path.same q = true) ∧ o.RefusedAtOnce g ∧ g.path.parentDir.same q = true

/-- The files tear a place between them: one of them is put there, some would make a directory of it, but
    all of these are refused at once and lie right below it. -/
def Torn (o : Obstacles) (m : Memory) (fs : List OutputFile) (q : Path) : Prop :=
  (∃ f ∈ fs, o.against? f = none ∧ f.path.same q = true) ∧ (∃ g ∈ fs, o.Brings m g q) ∧
    ∀ g ∈ fs, o.Brings m g q → o.RefusedAtOnce g ∧ g.path.parentDir.same q = true

/-- Where a place is torn, two of the files tear it. -/
theorem Torn.tears {fs : List OutputFile} (h : o.Torn m fs q) : ∃ f ∈ fs, ∃ g ∈ fs, o.Tears f g q := by
  obtain ⟨⟨f, hf, hplace⟩, ⟨g, hg, hbrings⟩, hall⟩ := h
  exact ⟨f, hf, g, hg, hplace, hall g hg hbrings⟩

/-- Files of which none is refused tear no place. -/
theorem not_torn {fs : List OutputFile} (h : ∀ f ∈ fs, o.against? f = none) (m : Memory) (q : Path) :
    ¬ o.Torn m fs q := by
  intro htorn
  obtain ⟨f, -, g, hg, -, ⟨hrefused, -⟩, -⟩ := htorn.tears
  exact hrefused (against?_eq_none_iff.mp (h g hg)).2

/-- After a file, there is what was there, what was put and what was brought. -/
theorem isThere_after (hm : m.Closed) (o : Obstacles) (f : OutputFile) (q : Path) :
    (o.after f m).isThere q = true ↔
      m.isThere q = true ∨ (o.against? f = none ∧ f.path.same q = true) ∨ o.Brings m f q := by
  unfold Memory.isThere
  rw [contains_after hm, PathMap.contains_eq, get?_after, PathMap.contains_eq (m := m.files)]
  by_cases hput : o.against? f = none ∧ f.path.same q = true
  · simp [hput]
  · simp [hput, or_assoc]

/-- What a file brings does not depend on the file that is put before it, but for what that one has brought
    already and what the two tear. -/
theorem brings_after (hm : m.Closed) (hq : ¬ o.Brings m f q) (htears : ¬ o.Tears f g q) :
    o.Brings (o.after f m) g q ↔ o.Brings m g q := by
  refine and_congr_right fun _ => ?_
  by_cases hmade : (o.file g.path = none ∨ o.makes g.path = true) ∧ q.Above g.path
  · exact iff_of_true (.inr hmade) (.inr hmade)
  refine or_congr_left (and_congr_left fun hdir => ?_)
  rw [← Bool.not_eq_true, ← Bool.not_eq_true, isThere_after hm]
  refine not_congr ⟨fun h => ?_, .inl⟩
  rcases h with hthere | ⟨hfree, hplace⟩ | hbrings
  · exact hthere
  · obtain ⟨hfdir, hffile⟩ := against?_eq_none_iff.mp hfree
    rcases hdir with hs | ha
    · have hfq : f.path.same q = true := (Path.same_congr hplace q).trans hs
      by_cases hmakes : o.file g.path = none ∨ o.makes g.path = true
      · -- Only the empty path is not made by `g`, and `f` lies there: it has brought its own directory.
        have hempty : q.components = [] := by
          by_contra hne
          exact hmade ⟨hmakes, Path.above_of_parentDir hs hne⟩
        have hown := Path.components_parentDir_of_eq_nil ((Path.same_iff.mp hfq).trans hempty)
        have hdirs : f.path.parentDir.same g.path.parentDir = true :=
          Path.same_iff.mpr (hown.trans ((Path.same_iff.mp hs).trans hempty).symm)
        rw [← Memory.isThere_congr hdirs]
        by_contra hthere
        exact hq (brings_of_eq_nil hfdir hfq hempty (Bool.eq_false_iff.mpr hthere))
      · rw [not_or, Bool.not_eq_true] at hmakes
        exact absurd ⟨⟨hfree, hfq⟩, hmakes, hs⟩ htears
    · have hqf : q.Above f.path := (Path.above_congr hplace q).mpr ha
      exact absurd ⟨hfdir, .inr ⟨.inl hffile, hqf⟩⟩ hq
  · refine absurd ?_ hq
    rcases hdir with hs | ha
    · exact (brings_congr hs).mp hbrings
    · exact hbrings.above ha

/-- Nothing is brought that would not have been brought at first. -/
theorem brings_of_after (hm : m.Closed) (h : o.Brings (o.after f m) g q) : o.Brings m g q := by
  refine ⟨h.1, h.2.imp_left fun ⟨hthere, hq⟩ => ⟨?_, hq⟩⟩
  rw [← Bool.not_eq_true] at hthere ⊢
  exact fun hbefore => hthere ((isThere_after hm o f _).mpr (.inl hbefore))

/-- A directory stays. -/
theorem contains_putAll_of_contains (hm : m.Closed) (fs : List OutputFile) (h : m.dirs.contains q = true) :
    (o.putAll fs m).dirs.contains q = true := by
  induction fs generalizing m with
  | nil => exact h
  | cons f fs ih =>
      refine ih (closed_after hm o f) ?_
      rw [contains_after hm, h, Bool.true_or]

/-- A directory was there, or one of the files brings it. -/
theorem brings_of_contains_putAll (hm : m.Closed) {fs : List OutputFile}
    (h : (o.putAll fs m).dirs.contains q = true) :
    m.dirs.contains q = true ∨ ∃ g ∈ fs, o.Brings m g q := by
  induction fs generalizing m with
  | nil => exact .inl h
  | cons f fs ih =>
      rcases ih (closed_after hm o f) h with hafter | ⟨g, hg, hbrings⟩
      · rw [contains_after hm, Bool.or_eq_true, decide_eq_true_iff] at hafter
        exact hafter.imp_right fun hbrings => ⟨f, List.mem_cons_self, hbrings⟩
      · exact .inr ⟨g, List.mem_cons_of_mem _ hg, brings_of_after hm hbrings⟩

/-- What a file brings is there in the end, if no file takes its place before. -/
theorem contains_putAll_of_brings (hm : m.Closed) {fs : List OutputFile} (hg : g ∈ fs)
    (hbrings : o.Brings m g q) (hfree : ∀ f ∈ fs, ¬ o.Tears f g q) :
    (o.putAll fs m).dirs.contains q = true := by
  induction fs generalizing m with
  | nil => exact absurd hg List.not_mem_nil
  | cons f fs ih =>
      by_cases hfirst : o.Brings m f q
      · refine contains_putAll_of_contains (closed_after hm o f) fs ?_
        rw [contains_after hm, decide_eq_true hfirst, Bool.or_true]
      · have hrest : g ∈ fs := (List.mem_cons.mp hg).resolve_left fun h => hfirst (h ▸ hbrings)
        refine ih (closed_after hm o f) hrest ?_ fun f' hf' => hfree f' (List.mem_cons_of_mem _ hf')
        exact (brings_after hm hfirst (hfree f List.mem_cons_self)).mpr hbrings

/-- The directories are those that were there and those that each file brings, but for what is torn. -/
theorem contains_putAll (hm : m.Closed) {fs : List OutputFile} (hq : ¬ o.Torn m fs q) :
    (o.putAll fs m).dirs.contains q = (m.dirs.contains q || fs.any fun f => decide (o.Brings m f q)) := by
  rw [Bool.eq_iff_iff, Bool.or_eq_true, List.any_eq_true]
  simp only [decide_eq_true_iff]
  refine ⟨brings_of_contains_putAll hm, fun h => ?_⟩
  rcases h with hthere | ⟨g, hg, hbrings⟩
  · exact contains_putAll_of_contains hm fs hthere
  -- If a file is put there, one of those that bring the directory is not torn from it.
  by_cases hput : ∃ f ∈ fs, o.against? f = none ∧ f.path.same q = true
  · obtain ⟨k, hk, hkbrings, hkept⟩ : ∃ k ∈ fs, o.Brings m k q ∧
        ¬ (o.RefusedAtOnce k ∧ k.path.parentDir.same q = true) := by
      by_contra hnone
      exact hq ⟨hput, ⟨g, hg, hbrings⟩, fun k hk hkbrings => by_contra fun hkept =>
        hnone ⟨k, hk, hkbrings, hkept⟩⟩
    exact contains_putAll_of_brings hm hk hkbrings fun f _ htears => hkept htears.2
  · exact contains_putAll_of_brings hm hg hbrings fun f hf htears => hput ⟨f, hf, htears.1⟩

/-- A torn place is a directory in the end if one of the files that bring it comes first. -/
theorem contains_putAll_cons (hm : m.Closed) (h : o.Brings m g q) (fs : List OutputFile) :
    (o.putAll (g :: fs) m).dirs.contains q = true := by
  refine contains_putAll_of_contains (closed_after hm o g) fs ?_
  rw [contains_after hm, decide_eq_true h, Bool.or_true]

/-- A torn place is no directory in the end if the file that is put there comes first. -/
theorem not_contains_putAll_cons (hm : m.Closed) {fs fs' : List OutputFile} (htorn : o.Torn m fs q)
    (hfree : o.against? f = none) (hplace : f.path.same q = true) (hf : f ∈ fs) (hsub : ∀ g ∈ fs', g ∈ fs) :
    (o.putAll (f :: fs') m).dirs.contains q = false := by
  obtain ⟨-, ⟨k, hk, hkbrings⟩, hall⟩ := htorn
  obtain ⟨hkrefused, hkdir⟩ := hall k hk hkbrings
  have hbefore : m.isThere q = false := by
    rw [← Memory.isThere_congr hkdir]
    exact hkbrings.isThere_eq_false hkrefused
  rw [Memory.isThere, Bool.or_eq_false_iff] at hbefore
  have hown : ¬ o.Brings m f q := fun h =>
    (hall f hf h).1.1 (against?_eq_none_iff.mp hfree).2
  rw [← Bool.not_eq_true]
  intro h
  rw [putAll_cons] at h
  rcases brings_of_contains_putAll (closed_after hm o f) h with hafter | ⟨g, hg, hbrings⟩
  · rw [contains_after hm, decide_eq_false hown, Bool.or_false, hbefore.2] at hafter
    exact nomatch hafter
  · obtain ⟨hrefused, hdir⟩ := hall g (hsub g hg) (brings_of_after hm hbrings)
    have hnot := hbrings.isThere_eq_false hrefused
    rw [Memory.isThere_congr hdir] at hnot
    exact nomatch hnot.symm.trans ((isThere_after hm o f q).mpr (.inr (.inl ⟨hfree, hplace⟩)))

/-! ## Any order -/

variable {fs fs' : List OutputFile}

/-- Whether a place is torn does not depend on the order of the files. -/
theorem torn_perm (hperm : fs.Perm fs') : o.Torn m fs q ↔ o.Torn m fs' q := by
  simp only [Torn, hperm.mem_iff]

/-- Files at different places may be put in any order: the same texts are there in the end, and the same
    directories but for those that are torn. -/
theorem putAll_perm (hm : m.Closed) (hperm : fs.Perm fs')
    (h : fs.Pairwise fun f g => f.path.same g.path = false) (q : Path) :
    (o.putAll fs m).files.get? q = (o.putAll fs' m).files.get? q ∧
      (¬ o.Torn m fs q → (o.putAll fs m).dirs.contains q = (o.putAll fs' m).dirs.contains q) := by
  constructor
  · rw [get?_putAll, get?_putAll, free, free, lastAt?_perm (hperm.filter _) (h.filter _)]
  · intro hq
    rw [contains_putAll hm hq, contains_putAll hm fun h => hq ((torn_perm hperm).mpr h)]
    congr 1
    rw [Bool.eq_iff_iff, List.any_eq_true, List.any_eq_true]
    simp only [hperm.mem_iff]

end Obstacles

end Typings.Files
