import Typings.Proofs.Files.Directories

/-!
# `Clearing` — directories that hold no file

A directory is cleared from below: each directory in it first, and then the directory itself, if nothing is
left in it.  Nothing is left if and only if there is no file anywhere below, for every directory without one
has gone by then; so no directory that is to go is ever found occupied.  What is left is described at once,
without the recursion (`Memory.clear`).

* `Memory.holds`, `Memory.clear`: files at or below a place, and the memory without directories that have
  none.
* `Memory.Children`: the children of a directory as they are listed.
* `Memory.Prunable`, `outcome_pruneWithin`: one directory, with as much fuel as there are levels.
* `Memory.prune_exact`: the whole run, from any memory that can be reached.
-/

namespace Typings

/-! ## Places in a directory -/

namespace Path

variable {p q dir : Path}

/-- A path starts with itself. -/
theorem startsWith_self (p : Path) : p.startsWith p = true := startsWith_iff_components.mpr (List.prefix_refl _)

/-- What starts with a path starts with all that this path starts with. -/
theorem startsWith_trans (h : p.startsWith q = true) (h' : q.startsWith dir = true) :
    p.startsWith dir = true :=
  startsWith_iff_components.mpr ((startsWith_iff_components.mp h').trans (startsWith_iff_components.mp h))

/-- What a path starts with does not depend on its spelling. -/
theorem startsWith_congr (h : p.same q = true) (dir : Path) : p.startsWith dir = q.startsWith dir := by
  rw [startsWith, startsWith, same_iff.mp h]

/-- What starts with a path does not depend on the spelling of that path. -/
theorem startsWith_congr_right (h : p.same q = true) (r : Path) : r.startsWith p = r.startsWith q := by
  rw [startsWith, startsWith, same_iff.mp h]

/-- What lies in a directory is the directory itself or lies below it. -/
theorem startsWith_iff_above (hd : dir.components ≠ []) :
    p.startsWith dir = true ↔ dir.same p = true ∨ dir.Above p := by
  rw [startsWith_iff_components, same_iff]
  constructor
  · intro hpre
    by_cases he : dir.components = p.components
    · exact .inl he
    · exact .inr ⟨hd, hpre, he⟩
  · rintro (he | ha)
    · exact he ▸ List.prefix_refl _
    · exact ha.2.1

/-- An absolute path has components. -/
theorem components_ne_nil (h : p.isAbsolute = true) : p.components ≠ [] := by
  rw [components_of_isAbsolute h]
  exact List.cons_ne_nil _ _

/-- What starts with a path that has components has some. -/
theorem components_ne_nil_of_startsWith (hd : dir.components ≠ []) (h : p.startsWith dir = true) :
    p.components ≠ [] :=
  fun he => hd (List.prefix_nil.mp (he ▸ startsWith_iff_components.mp h))

/-- Every beginning of a path is that of a place. -/
theorem exists_beginning {front : List Component} (h : front <+: p.components) (hne : front ≠ []) :
    ∃ q : Path, q.components = front := by
  -- From the path upwards: each parent has one component less.
  induction hlength : p.components.length using Nat.strong_induction_on generalizing p with
  | _ n ih =>
      by_cases he : front = p.components
      · exact ⟨p, he.symm⟩
      · cases hparent : p.parent? with
        | some up =>
            obtain ⟨c, -, hp⟩ := components_of_parent? hparent
            rw [hp, List.prefix_concat_iff, ← hp] at h
            exact ih _ (by rw [← hlength, hp]; simp) (h.resolve_left he) rfl
        | none =>
            rcases parent?_eq_none_iff.mp hparent with hp | hp
            · exact absurd (List.prefix_nil.mp (hp ▸ h)) hne
            · rw [hp, List.prefix_cons_iff] at h
              obtain ⟨rest, rfl, hrest⟩ := h.resolve_left hne
              exact absurd (by rw [hp, List.prefix_nil.mp hrest]) he

/-- What lies in a directory, but is not the directory, lies in a place directly in it. -/
theorem exists_child_of_startsWith (h : p.startsWith dir = true) (hne : dir.same p = false) :
    ∃ (child : Path) (c : Component),
      child.components = dir.components ++ [c] ∧ p.startsWith child = true := by
  obtain ⟨rest, hrest⟩ := startsWith_iff_components.mp h
  cases rest with
  | nil =>
      have hs : dir.same p = true := same_iff.mpr (by rw [← hrest, List.append_nil])
      exact nomatch hne.symm.trans hs
  | cons c rest =>
      have hpre : dir.components ++ [c] <+: p.components := ⟨rest, by rw [← hrest]; simp⟩
      obtain ⟨child, hchild⟩ := exists_beginning hpre (by simp)
      exact ⟨child, c, hchild, startsWith_iff_components.mpr (hchild ▸ hpre)⟩

end Path

/-! ## Maps with some of their entries -/

namespace PathMap

variable {α : Type} {m : PathMap α}

/-- The map with the entries at the places that are kept. -/
def filter (m : PathMap α) (keep : Path → Bool) : PathMap α := ⟨m.entries.filter fun e => keep e.1⟩

/-- Leaving entries out keeps the others in order. -/
theorem Ordered.filter (h : m.Ordered) (keep : Path → Bool) : (m.filter keep).Ordered :=
  List.Pairwise.filter _ h

/-- What is kept is what was there and is to be kept. -/
theorem contains_filter {keep : Path → Bool} (hkeep : ∀ {p q : Path}, p.same q = true → keep p = keep q)
    (q : Path) : (m.filter keep).contains q = (keep q && m.contains q) := by
  rw [Bool.eq_iff_iff, Bool.and_eq_true, contains, contains, List.any_eq_true, List.any_eq_true]
  constructor
  · rintro ⟨e, he, hs⟩
    obtain ⟨he, hk⟩ := List.mem_filter.mp he
    exact ⟨hkeep hs ▸ hk, e, he, hs⟩
  · rintro ⟨hk, e, he, hs⟩
    exact ⟨e, List.mem_filter.mpr ⟨he, (hkeep hs).trans hk⟩, hs⟩

/-- What is left out twice is left out at once. -/
theorem filter_filter (f g : Path → Bool) : (m.filter f).filter g = m.filter fun q => f q && g q := by
  rw [filter, filter, filter, List.filter_filter]
  simp only [Bool.and_comm]

/-- Only what the map contains decides what is left of it. -/
theorem filter_congr {f g : Path → Bool} (h : ∀ q, m.contains q = true → f q = g q) :
    m.filter f = m.filter g := by
  rw [filter, filter]
  refine congrArg _ (List.filter_congr fun e he => h e.1 ?_)
  exact List.any_eq_true.mpr ⟨e, he, Path.same_self _⟩

/-- A path in a map is one of its keys, under some spelling. -/
theorem mem_keys_of_contains {p : Path} (h : m.contains p = true) : ∃ q ∈ m.keys, q.same p = true := by
  obtain ⟨e, he, hs⟩ := List.any_eq_true.mp h
  exact ⟨e.1, List.mem_map_of_mem he, hs⟩

theorem contains_of_mem_keys {p : Path} (h : p ∈ m.keys) : m.contains p = true := by
  obtain ⟨e, he, rfl⟩ := List.mem_map.mp h
  exact List.any_eq_true.mpr ⟨e, he, Path.same_self _⟩

/-- No two keys of an ordered map are the same path. -/
theorem Ordered.pairwise_keys (h : m.Ordered) : m.keys.Pairwise fun p q => p.same q = false := by
  rw [keys, List.pairwise_map]
  refine h.imp fun hlt => ?_
  rw [Bool.eq_false_iff, Ne, ← Path.compare_eq_eq, hlt]
  decide

theorem filter_true (m : PathMap α) : m.filter (fun _ => true) = m := by
  rw [filter, List.filter_eq_self.mpr fun _ _ => rfl]

end PathMap

namespace Files.Memory

variable {m : Memory} {p q dir : Path} {places : List Path} {fuel : Nat}

/-! ## What is cleared -/

/-- There is a file at the place, or somewhere below it. -/
def holds (m : Memory) (q : Path) : Bool := m.files.keys.any (·.startsWith q)

/-- A place holds something if a file is at it or below it. -/
theorem holds_iff : m.holds q = true ↔ ∃ f, m.files.contains f = true ∧ f.startsWith q = true := by
  rw [holds, List.any_eq_true]
  constructor
  · rintro ⟨f, hf, hq⟩
    obtain ⟨e, he, rfl⟩ := List.mem_map.mp hf
    exact ⟨e.1, List.any_eq_true.mpr ⟨e, he, Path.same_self _⟩, hq⟩
  · rintro ⟨f, hf, hq⟩
    obtain ⟨e, he, hs⟩ := List.any_eq_true.mp hf
    exact ⟨e.1, List.mem_map_of_mem he, (Path.startsWith_congr hs q).trans hq⟩

/-- What a place holds does not depend on its spelling. -/
theorem holds_congr (h : p.same q = true) : m.holds p = m.holds q := by
  unfold holds
  simp only [Path.startsWith_congr_right h]

/-- What is held below a directory is held by it. -/
theorem holds_of_startsWith (h : p.startsWith q = true) (hp : m.holds p = true) : m.holds q = true := by
  obtain ⟨f, hf, hfp⟩ := holds_iff.mp hp
  exact holds_iff.mpr ⟨f, hf, Path.startsWith_trans hfp h⟩

/-- A directory stays if there is a file at or below it, or if it is in none of the places. -/
def stays (m : Memory) (places : List Path) (q : Path) : Bool :=
  m.holds q || !places.any (q.startsWith ·)

/-- Whether a directory stays does not depend on its spelling. -/
theorem stays_congr (h : p.same q = true) : m.stays places p = m.stays places q := by
  unfold stays
  simp only [holds_congr h, Path.startsWith_congr h]

/-- The memory without the directories at or below some places that hold no file. -/
def clear (m : Memory) (places : List Path) : Memory :=
  ⟨m.files, m.dirs.filter (m.stays places)⟩

/-- After clearing, the directories are those that stay. -/
theorem contains_clear (m : Memory) (places : List Path) (q : Path) :
    (m.clear places).dirs.contains q = (m.stays places q && m.dirs.contains q) :=
  PathMap.contains_filter stays_congr q

/-- Only the directories that are there decide what clearing leaves. -/
theorem clear_congr {more : List Path}
    (h : ∀ q, m.dirs.contains q = true → m.stays places q = m.stays more q) :
    m.clear places = m.clear more :=
  congrArg (Memory.mk m.files) (PathMap.filter_congr h)

/-- If every directory stays, the memory is the same. -/
theorem clear_of_stays (h : ∀ q, m.dirs.contains q = true → m.stays places q = true) :
    m.clear places = m :=
  congrArg (Memory.mk m.files) ((PathMap.filter_congr h).trans m.dirs.filter_true)

/-- Clearing no place changes nothing. -/
theorem clear_nil (m : Memory) : m.clear [] = m := clear_of_stays fun _ _ => Bool.or_true _

/-- Places that are cleared one after the other are cleared together. -/
theorem clear_clear (m : Memory) (places more : List Path) :
    (m.clear places).clear more = m.clear (places ++ more) := by
  refine congrArg (Memory.mk m.files) ((PathMap.filter_filter _ _).trans (PathMap.filter_congr fun q _ => ?_))
  rw [stays, stays, stays, List.any_append, Bool.not_or, Bool.or_and_distrib_left]
  rfl

/-- What is above a directory or a file that is left is left. -/
theorem Sound.clear (h : m.Sound) (places : List Path) : (m.clear places).Sound where
  dirs := h.dirs.filter _
  closed a b ha hb := by
    have hstarts := startsWith_of_above hb
    rw [contains_clear, stays, Bool.and_eq_true, Bool.or_eq_true, Bool.not_eq_true',
      List.any_eq_false] at ha ⊢
    refine ⟨ha.1.imp (holds_of_startsWith hstarts) fun hout place hp hin => ?_, h.closed a b ha.2 hb⟩
    exact hout place hp (Path.startsWith_trans hstarts hin)
  housed f q hf hq := by
    have hholds : m.holds q = true := holds_iff.mpr ⟨f, hf, startsWith_of_above hq⟩
    rw [contains_clear, stays, hholds, h.housed f q hf hq]
    rfl

/-! ## The children of a directory -/

/-- A child has one component more than its directory. -/
theorem isChild_iff (hd : dir.components ≠ []) :
    isChild dir p = true ↔ ∃ c, p.components = dir.components ++ [c] := by
  unfold isChild
  cases hparent : p.parent? with
  | some up =>
      obtain ⟨c, -, hp⟩ := Path.components_of_parent? hparent
      show up.same dir = true ↔ _
      rw [Path.same_iff, hp]
      constructor
      · exact fun he => ⟨c, by rw [he]⟩
      · exact fun ⟨d, he⟩ => (List.append_inj' he rfl).1
  | none =>
      refine iff_of_false Bool.false_ne_true ?_
      rintro ⟨c, hp⟩
      have hpos := List.length_pos_iff.mpr hd
      have hlength : p.components.length = dir.components.length + 1 := by rw [hp]; simp
      rcases Path.parent?_eq_none_iff.mp hparent with he | he <;> rw [he] at hlength <;>
        simp at hlength
      exact hd hlength

/-- The directories among some entries. -/
def directoriesOf (entries : List DirEntry) : List Path := (entries.filter (·.isDir)).map (·.path)

theorem mem_directoriesOf {entries : List DirEntry} :
    p ∈ directoriesOf entries ↔ ∃ e ∈ entries, e.isDir = true ∧ e.path = p := by
  rw [directoriesOf, List.mem_map]
  simp only [List.mem_filter, and_assoc]

theorem directoriesOf_cons (e : DirEntry) (rest : List DirEntry) :
    directoriesOf (e :: rest) = if e.isDir then e.path :: directoriesOf rest else directoriesOf rest := by
  rw [directoriesOf, List.filter_cons]
  cases e.isDir <;> rfl

/-- The children of a directory as they are listed: the files and the directories in it, each directory
    once. -/
structure Children (m : Memory) (dir : Path) (entries : List DirEntry) : Prop where
  child : ∀ e ∈ entries, ∃ c, e.path.components = dir.components ++ [c]
  file : ∀ e ∈ entries, e.isDir = false → m.files.contains e.path = true
  directory : ∀ e ∈ entries, e.isDir = true → m.dirs.contains e.path = true
  files : ∀ {p : Path} {c}, m.files.contains p = true → p.components = dir.components ++ [c] →
    ∃ e ∈ entries, e.isDir = false
  directories : ∀ {p : Path} {c}, m.dirs.contains p = true → p.components = dir.components ++ [c] →
    ∃ e ∈ entries, e.isDir = true ∧ e.path.same p = true
  apart : entries.Pairwise fun e e' => e.isDir = true → e'.isDir = true → e.path.same e'.path = false

/-- Entries for the places that are directly in a directory. -/
def entriesAt (dir : Path) (isDir : Bool) (places : List Path) : List DirEntry :=
  (places.filter (isChild dir)).map fun p => ⟨p, isDir⟩

theorem mem_entriesAt {isDir : Bool} {e : DirEntry} :
    e ∈ entriesAt dir isDir places ↔ e.isDir = isDir ∧ e.path ∈ places ∧ isChild dir e.path = true := by
  obtain ⟨p, k⟩ := e
  simp only [entriesAt, List.mem_map, List.mem_filter, DirEntry.mk.injEq]
  constructor
  · rintro ⟨q, hq, rfl, rfl⟩
    exact ⟨rfl, hq⟩
  · rintro ⟨rfl, hp⟩
    exact ⟨p, hp, rfl, rfl⟩

/-- A directory is listed, in some order. -/
theorem perm_of_list (hdir : m.dirs.contains dir = true) :
    ∃ entries, m.list dir = .ok entries ∧
      entries.Perm (entriesAt dir false m.files.keys ++ entriesAt dir true m.dirs.keys) :=
  ⟨_, if_pos hdir, List.mergeSort_perm _ _⟩

/-- Among the entries of a directory no directory is listed twice. -/
theorem siblings_entriesAt (hm : m.Sound) (dir : Path) :
    (entriesAt dir false m.files.keys ++ entriesAt dir true m.dirs.keys).Pairwise fun e e' =>
      e.isDir = true → e'.isDir = true → e.path.same e'.path = false := by
  have hplain {e : DirEntry} (he : e ∈ entriesAt dir false m.files.keys) : e.isDir ≠ true := by
    rw [(mem_entriesAt.mp he).1]
    exact Bool.false_ne_true
  refine List.pairwise_append.mpr ⟨?_, ?_, ?_⟩
  · exact List.pairwise_of_forall_mem_list fun e he _ _ hdir => absurd hdir (hplain he)
  · exact List.pairwise_map.mpr ((hm.dirs.pairwise_keys.filter _).imp fun h _ _ => h)
  · exact fun e he _ _ hdir => absurd hdir (hplain he)

/-- A directory that is there is listed with its children. -/
theorem list_of_contains (hm : m.Sound) (hd : dir.components ≠ []) (hdir : m.dirs.contains dir = true) :
    ∃ entries, m.list dir = .ok entries ∧ m.Children dir entries := by
  obtain ⟨entries, hlist, hperm⟩ := perm_of_list hdir
  have hmem {e : DirEntry} : e ∈ entries ↔
      (e.isDir = false ∧ e.path ∈ m.files.keys ∨ e.isDir = true ∧ e.path ∈ m.dirs.keys) ∧
        isChild dir e.path = true := by
    rw [hperm.mem_iff, List.mem_append, mem_entriesAt, mem_entriesAt, ← and_assoc, ← and_assoc,
      ← or_and_right]
  refine ⟨entries, hlist, ?_⟩
  constructor
  case child => exact fun e he => (isChild_iff hd).mp (hmem.mp he).2
  case file =>
    intro e he hfile
    rcases (hmem.mp he).1 with ⟨-, hkey⟩ | ⟨hdir', -⟩
    · exact PathMap.contains_of_mem_keys hkey
    · exact absurd (hfile.symm.trans hdir') Bool.false_ne_true
  case directory =>
    intro e he hdir'
    rcases (hmem.mp he).1 with ⟨hfile, -⟩ | ⟨-, hkey⟩
    · exact absurd (hfile.symm.trans hdir') Bool.false_ne_true
    · exact PathMap.contains_of_mem_keys hkey
  case files =>
    intro p c hp hc
    obtain ⟨q, hq, hs⟩ := PathMap.mem_keys_of_contains hp
    refine ⟨⟨q, false⟩, hmem.mpr ⟨.inl ⟨rfl, hq⟩, (isChild_iff hd).mpr ⟨c, ?_⟩⟩, rfl⟩
    rw [Path.same_iff.mp hs, hc]
  case directories =>
    intro p c hp hc
    obtain ⟨q, hq, hs⟩ := PathMap.mem_keys_of_contains hp
    refine ⟨⟨q, true⟩, hmem.mpr ⟨.inr ⟨rfl, hq⟩, (isChild_iff hd).mpr ⟨c, ?_⟩⟩, rfl, hs⟩
    rw [Path.same_iff.mp hs, hc]
  case apart =>
    refine hperm.symm.pairwise (siblings_entriesAt hm dir) fun h hd hd' => ?_
    rw [Path.same_comm]
    exact h hd' hd

/-- The children of a directory are below it. -/
theorem Children.startsWith {entries : List DirEntry} (h : m.Children dir entries) {e : DirEntry}
    (he : e ∈ entries) : e.path.startsWith dir = true := by
  obtain ⟨c, hc⟩ := h.child e he
  exact Path.startsWith_iff_components.mpr ⟨[c], hc.symm⟩

/-- A directory holds a file if and only if it is among its children or held by one of them. -/
theorem Children.all_eq {entries : List DirEntry} (h : m.Children dir entries) (hm : m.Sound)
    (hfile : m.files.contains dir = false) :
    (entries.all fun e => e.isDir && !m.holds e.path) = !m.holds dir := by
  rw [Bool.eq_iff_iff, List.all_eq_true, Bool.not_eq_true', ← Bool.not_eq_true]
  constructor
  · intro hall hholds
    -- A file below the directory is a child of it, or lies below a child that is a directory.
    obtain ⟨f, hf, hstarts⟩ := holds_iff.mp hholds
    have hne : dir.same f = false := by
      refine Bool.eq_false_iff.mpr fun hs => ?_
      rw [PathMap.contains_congr hs, hf] at hfile
      exact nomatch hfile
    obtain ⟨q, c, hq, hin⟩ := Path.exists_child_of_startsWith hstarts hne
    rcases (Path.startsWith_iff_above (by rw [hq]; simp)).mp hin with hs | habove
    · obtain ⟨e, he, hplain⟩ := h.files hf ((Path.same_iff.mp hs).symm.trans hq)
      have hdir := hall e he
      rw [hplain] at hdir
      exact nomatch hdir
    · obtain ⟨e, he, -, hs⟩ := h.directories (hm.housed f q hf habove) hq
      have hempty := hall e he
      rw [holds_congr hs, holds_iff.mpr ⟨f, hf, hin⟩, Bool.not_true, Bool.and_false] at hempty
      exact nomatch hempty
  · intro hempty e he
    have hnone : m.holds e.path = false :=
      Bool.eq_false_iff.mpr fun hholds => hempty (holds_of_startsWith (h.startsWith he) hholds)
    rw [hnone, Bool.not_false, Bool.and_true]
    by_contra hplain
    have hf := h.file e he (by simpa using hplain)
    exact hempty (holds_iff.mpr ⟨e.path, hf, h.startsWith he⟩)

/-- What lies below a directory lies in one of the directories among its children, or is none. -/
theorem Children.any_eq {entries : List DirEntry} (h : m.Children dir entries) (hm : m.Sound)
    (hq : m.dirs.contains q = true) :
    (directoriesOf entries).any (q.startsWith ·) = (q.startsWith dir && !dir.same q) := by
  rw [Bool.eq_iff_iff, List.any_eq_true, Bool.and_eq_true, Bool.not_eq_true']
  constructor
  · rintro ⟨place, hplace, hstarts⟩
    obtain ⟨e, he, -, rfl⟩ := mem_directoriesOf.mp hplace
    refine ⟨Path.startsWith_trans hstarts (h.startsWith he), ?_⟩
    -- A child has more components than the directory.
    obtain ⟨c, hc⟩ := h.child e he
    have hle := (Path.startsWith_iff_components.mp hstarts).length_le
    rw [hc, List.length_append, List.length_singleton] at hle
    rw [Bool.eq_false_iff, Ne, Path.same_iff]
    intro hsame
    rw [hsame] at hle
    omega
  · rintro ⟨hstarts, hne⟩
    obtain ⟨child, c, hchild, hin⟩ := Path.exists_child_of_startsWith hstarts hne
    have hthere : m.dirs.contains child = true := by
      rcases (Path.startsWith_iff_above (by rw [hchild]; simp)).mp hin with hs | habove
      · rwa [PathMap.contains_congr hs]
      · exact hm.closed q child hq habove
    obtain ⟨e, he, hdir, hs⟩ := h.directories hthere hchild
    refine ⟨e.path, mem_directoriesOf.mpr ⟨e, he, hdir, rfl⟩, ?_⟩
    rw [Path.startsWith_congr_right hs]
    exact hin

/-- Directories next to each other are not in each other. -/
theorem Children.siblings {entries : List DirEntry} (h : m.Children dir entries) :
    entries.Pairwise fun e e' => e.isDir = true → e'.isDir = true → e'.path.startsWith e.path = false := by
  refine h.apart.imp_of_mem fun {e e'} he he' hne hdir hdir' => ?_
  obtain ⟨c, hc⟩ := h.child e he
  obtain ⟨c', hc'⟩ := h.child e' he'
  rw [Bool.eq_false_iff, Ne, Path.startsWith_iff_components]
  intro hpre
  have heq := hpre.eq_of_length (by rw [hc, hc']; simp)
  exact nomatch (hne hdir hdir').symm.trans (Path.same_iff.mpr heq)

/-! ## One directory -/

/-- A directory can be cleared with some fuel: it is no file, below it no place is a file and a directory,
    and there are not more levels of directories in it than there is fuel. -/
structure Prunable (m : Memory) (fuel : Nat) (dir : Path) : Prop where
  sound : m.Sound
  named : dir.components ≠ []
  file : m.files.contains dir = false
  apart : ∀ p : Path, p.startsWith dir = true → m.files.contains p = true → m.dirs.contains p = false
  depth : ∀ q : Path, m.dirs.contains q = true → q.startsWith dir = true →
    q.components.length < dir.components.length + fuel

/-- What is cleared leaves the rest as easy to clear. -/
theorem Prunable.clear (h : m.Prunable fuel dir) (places : List Path) : (m.clear places).Prunable fuel dir where
  sound := h.sound.clear places
  named := h.named
  file := h.file
  apart p hin hf := by
    rw [contains_clear, h.apart p hin hf, Bool.and_false]
  depth q hq := by
    rw [contains_clear, Bool.and_eq_true] at hq
    exact h.depth q hq.2

/-- A directory in one that can be cleared takes one unit of fuel less. -/
theorem Prunable.child (h : m.Prunable (fuel + 1) dir) {c : Component}
    (hp : p.components = dir.components ++ [c]) (hdir : m.dirs.contains p = true) : m.Prunable fuel p := by
  have hstarts : p.startsWith dir = true := Path.startsWith_iff_components.mpr ⟨[c], hp.symm⟩
  constructor
  case sound => exact h.sound
  case named => rw [hp]; simp
  case file =>
    by_contra hf
    exact nomatch (h.apart p hstarts (by simpa using hf)).symm.trans hdir
  case apart => exact fun q hq => h.apart q (Path.startsWith_trans hq hstarts)
  case depth =>
    intro q hq hin
    have hlt := h.depth q hq (Path.startsWith_trans hin hstarts)
    rw [hp, List.length_append, List.length_singleton]
    omega

/-- What is not there is cleared already. -/
theorem clear_of_not_contains (hm : m.Sound) (hd : dir.components ≠ []) (h : m.dirs.contains dir = false) :
    m.clear [dir] = m := by
  refine clear_of_stays fun q hq => ?_
  have hout : q.startsWith dir = false := by
    by_contra hin
    rcases (Path.startsWith_iff_above hd).mp (by simpa using hin) with hs | habove
    · rw [PathMap.contains_congr hs, hq] at h
      exact nomatch h
    · exact nomatch (hm.closed q dir hq habove).symm.trans h
  rw [stays, List.any_cons, List.any_nil, hout, Bool.or_false, Bool.not_false, Bool.or_true]

/-- The children of a directory, one after the other; what is cleared in one changes nothing in the
    others. -/
theorem outcome_pruneChildren {prune : Path → StoreM Memory Bool} {entries : List DirEntry}
    (hprune : ∀ (m : Memory) (p : Path), m.Prunable fuel p →
      outcome (prune p m) = (.ok (m.dirs.contains p && !m.holds p), m.clear [p]))
    (hdirs : ∀ e ∈ entries, e.isDir = true → m.Prunable fuel e.path ∧ m.dirs.contains e.path = true)
    (hsiblings : entries.Pairwise fun e e' =>
      e.isDir = true → e'.isDir = true → e'.path.startsWith e.path = false) :
    outcome (FileStore.pruneChildren prune entries m)
      = (.ok (entries.all fun e => e.isDir && !m.holds e.path), m.clear (directoriesOf entries)) := by
  induction entries generalizing m with
  | nil =>
      rw [directoriesOf, List.filter_nil, List.map_nil, clear_nil]
      rfl
  | cons e rest ih =>
      obtain ⟨hfirst, hrest⟩ := List.forall_mem_cons.mp hdirs
      obtain ⟨hapart, hsiblings⟩ := List.pairwise_cons.mp hsiblings
      rw [FileStore.pruneChildren]
      cases hdir : e.isDir with
      | false =>
          rw [if_neg Bool.false_ne_true, outcome_bind_ok rfl, outcome_bind_ok (ih hrest hsiblings),
            List.all_cons, hdir, directoriesOf_cons, hdir]
          rfl
      | true =>
          obtain ⟨hcan, hthere⟩ := hfirst hdir
          -- The other directories are not in the one that is cleared first, so they are as they were.
          have hothers : ∀ e' ∈ rest, e'.isDir = true →
              (m.clear [e.path]).Prunable fuel e'.path ∧
                (m.clear [e.path]).dirs.contains e'.path = true := by
            intro e' he' hdir'
            obtain ⟨hcan', hthere'⟩ := hrest e' he' hdir'
            refine ⟨hcan'.clear _, ?_⟩
            rw [contains_clear, stays, List.any_cons, List.any_nil, hapart e' he' hdir hdir', hthere']
            simp
          rw [if_pos rfl, outcome_bind_ok (hprune m e.path hcan), outcome_bind_ok (ih hothers hsiblings),
            List.all_cons, hthere, clear_clear, directoriesOf_cons, hdir]
          rfl

/-- Once its children are cleared, a directory that holds a file is cleared. -/
theorem Children.clear_of_holds {entries : List DirEntry} (h : m.Children dir entries) (hm : m.Sound)
    (hholds : m.holds dir = true) : m.clear (directoriesOf entries) = m.clear [dir] := by
  refine clear_congr fun q hq => ?_
  rw [stays, stays, h.any_eq hm hq, List.any_cons, List.any_nil, Bool.or_false]
  cases hs : dir.same q with
  | true => rw [← holds_congr hs, hholds, Bool.true_or, Bool.true_or]
  | false => rw [Bool.not_false, Bool.and_true]

/-- Once its children are cleared, a directory that holds no file is empty, and is removed. -/
theorem Children.removeDir_of_not_holds {entries : List DirEntry} (h : m.Children dir entries) (hm : m.Sound)
    (hdir : m.dirs.contains dir = true) (hholds : m.holds dir = false) :
    (m.clear (directoriesOf entries)).removeDir dir = .ok (m.clear [dir]) := by
  have hstays {q : Path} (hq : m.dirs.contains q = true) :
      m.stays (directoriesOf entries) q = (m.holds q || !(q.startsWith dir && !dir.same q)) := by
    rw [stays, h.any_eq hm hq]
  have hempty : (m.clear (directoriesOf entries)).isOccupied dir = false := by
    rw [isOccupied, Bool.or_eq_false_iff]
    refine ⟨hholds, Bool.eq_false_iff.mpr fun hany => ?_⟩
    obtain ⟨q, hkey, hq⟩ := List.any_eq_true.mp hany
    have hleft := PathMap.contains_of_mem_keys hkey
    rw [contains_clear, Bool.and_eq_true] at hleft
    rw [hstays hleft.2, Path.same_comm dir q, Bool.and_comm (q.startsWith dir), hq, Bool.not_true,
      Bool.or_false] at hleft
    rw [Bool.and_eq_true] at hq
    exact absurd (hholds.symm.trans (holds_of_startsWith hq.2 hleft.1)) Bool.false_ne_true
  have hthere : (m.clear (directoriesOf entries)).dirs.contains dir = true := by
    rw [contains_clear, hstays hdir, hdir, Path.same_self, Bool.not_true, Bool.and_false, Bool.not_false,
      Bool.or_true]
    rfl
  rw [removeDir, hempty, if_neg Bool.false_ne_true, if_pos hthere]
  refine congrArg Except.ok (congrArg (Memory.mk m.files) ?_)
  show (m.dirs.filter _).filter (fun q => !q.same dir) = m.dirs.filter _
  rw [PathMap.filter_filter]
  refine PathMap.filter_congr fun q hq => ?_
  rw [hstays hq, stays, List.any_cons, List.any_nil, Bool.or_false, Path.same_comm q dir]
  cases hs : dir.same q with
  | true =>
      rw [← holds_congr hs, hholds, ← Path.startsWith_congr hs, Path.startsWith_self]
      rfl
  | false => rw [Bool.not_false, Bool.and_true, Bool.and_true]

/-- **One directory**: it and every directory in it go that hold no file, and it is told whether it was there
    and went. -/
theorem outcome_pruneWithin (h : m.Prunable fuel dir) :
    outcome (store.pruneWithin fuel dir m) = (.ok (m.dirs.contains dir && !m.holds dir), m.clear [dir]) := by
  -- Each level of directories takes one unit of fuel, and `Prunable` says that there are enough.
  induction fuel generalizing m dir with
  | zero =>
      have hdir : m.dirs.contains dir = false :=
        Bool.eq_false_iff.mpr fun hin => Nat.lt_irrefl _ (h.depth dir hin (Path.startsWith_self dir))
      rw [hdir, clear_of_not_contains h.sound h.named hdir]
      rfl
  | succ fuel ih =>
      rw [FileStore.pruneWithin, outcome_bind_ok rfl]
      have hthere : store.isThere m dir = m.dirs.contains dir := by
        show (m.files.contains dir || m.dirs.contains dir) = _
        rw [h.file, Bool.false_or]
      cases hdir : m.dirs.contains dir with
      | false =>
          rw [hthere, hdir, clear_of_not_contains h.sound h.named hdir]
          rfl
      | true =>
          obtain ⟨entries, hlist, hchildren⟩ := list_of_contains h.sound h.named hdir
          have hdirs : ∀ e ∈ entries, e.isDir = true →
              m.Prunable fuel e.path ∧ m.dirs.contains e.path = true := by
            intro e he he'
            obtain ⟨c, hc⟩ := hchildren.child e he
            exact ⟨h.child hc (hchildren.directory e he he'), hchildren.directory e he he'⟩
          have hrun := outcome_pruneChildren (fun _ _ => ih) hdirs hchildren.siblings
          rw [hchildren.all_eq h.sound h.file] at hrun
          have hlisted : store.list m dir = .ok entries := hlist
          rw [hthere, hdir, Bool.not_true, if_neg Bool.false_ne_true, hlisted, outcome_bind_ok hrun,
            Bool.true_and]
          cases hholds : m.holds dir with
          | true =>
              rw [hchildren.clear_of_holds h.sound hholds]
              rfl
          | false =>
              have hremove : outcome (store.removeDir dir (m.clear (directoriesOf entries)))
                  = (.ok (), m.clear [dir]) := by
                show outcome (update (fun m => m.removeDir dir) _) = _
                rw [update, hchildren.removeDir_of_not_holds h.sound hdir hholds]
                rfl
              rw [Bool.not_false, if_pos rfl, outcome_bind_ok hremove]
              rfl

/-! ## The whole run -/

theorem length_le_foldl_max (keys : List Path) (n : Nat) :
    n ≤ keys.foldl (fun n d => max n d.components.length) n ∧
      ∀ q ∈ keys, q.components.length ≤ keys.foldl (fun n d => max n d.components.length) n := by
  induction keys generalizing n with
  | nil => exact ⟨Nat.le_refl n, by simp⟩
  | cons d rest ih =>
      obtain ⟨hstart, hrest⟩ := ih (max n d.components.length)
      rw [List.foldl_cons]
      exact ⟨(Nat.le_max_left _ _).trans hstart,
        List.forall_mem_cons.mpr ⟨(Nat.le_max_right _ _).trans hstart, hrest⟩⟩

/-- No directory is deeper than the fuel that is given for the walk. -/
theorem length_le_depth (h : m.dirs.contains q = true) : q.components.length ≤ store.depth m := by
  obtain ⟨d, hkey, hs⟩ := PathMap.mem_keys_of_contains h
  rw [← Path.same_iff.mp hs]
  exact (length_le_foldl_max m.dirs.keys 0).2 d hkey

/-- What is no file itself holds the files below it. -/
theorem holds_iff_above (hq : q.components ≠ []) (hfile : m.files.contains q = false) :
    m.holds q = true ↔ ∃ f, m.files.contains f = true ∧ q.Above f := by
  rw [holds_iff]
  refine exists_congr fun f => and_congr_right fun hf => ?_
  rw [Path.startsWith_iff_above hq]
  refine or_iff_right fun hs => ?_
  rw [PathMap.contains_congr hs, hf] at hfile
  exact nomatch hfile

/-- **Clearing a directory** ends without an error, whatever the fuel, and changes no file.  The directories
    that go are those at or below it with no file below them, and it is told whether it was there and went. -/
theorem prune_exact (hm : m.Reachable) (hapart : m.Apart) (hd : dir.isAbsolute = true)
    (hfile : m.files.contains dir = false) :
    ∃ m', outcome (store.prune dir m) = (.ok (m.dirs.contains dir && !m'.dirs.contains dir), m') ∧
      (∀ fuel, store.depth m < fuel →
        outcome (store.pruneWithin fuel dir m) = outcome (store.prune dir m)) ∧
      m'.files = m.files ∧
      ∀ q, m'.dirs.contains q = true ↔ m.dirs.contains q = true ∧
        ¬ (q.startsWith dir = true ∧ ∀ f, m.files.contains f = true → ¬ q.Above f) := by
  have hroot := Path.components_ne_nil hd
  have hcan {fuel : Nat} (hfuel : store.depth m < fuel) : m.Prunable fuel dir := by
    refine ⟨hm.sound, hroot, hfile, fun p _ hp => hapart p hp, fun q hq _ => ?_⟩
    have hle := length_le_depth hq
    omega
  have hrun : outcome (store.prune dir m) = (.ok (m.dirs.contains dir && !m.holds dir), m.clear [dir]) :=
    outcome_pruneWithin (hcan (Nat.lt_succ_self _))
  have hleft (q : Path) : (m.clear [dir]).dirs.contains q
      = ((m.holds q || !q.startsWith dir) && m.dirs.contains q) := by
    rw [contains_clear, stays, List.any_cons, List.any_nil, Bool.or_false]
  refine ⟨m.clear [dir], ?_, fun fuel hfuel => ?_, rfl, fun q => ?_⟩
  · rw [hrun, hleft, Path.startsWith_self]
    cases m.dirs.contains dir <;> cases m.holds dir <;> rfl
  · rw [hrun, outcome_pruneWithin (hcan hfuel)]
  · rw [hleft, Bool.and_eq_true, and_comm, Bool.or_eq_true, Bool.not_eq_true', ← Bool.not_eq_true]
    refine and_congr_right fun hq => ?_
    by_cases hin : q.startsWith dir = true
    · have hplain : m.files.contains q = false :=
        Bool.eq_false_iff.mpr fun hf => nomatch (hapart q hf).symm.trans hq
      rw [holds_iff_above (Path.components_ne_nil_of_startsWith hroot hin) hplain]
      simp [hin]
    · simp [hin]

/-- A file, and a directory beside it with nothing but a directory in it. -/
def beside : Memory := (Change.createDirs "/p/dist/old/deep").apply (ofFiles [("/p/dist/main.d.ts", "x\n")])

theorem prune_exact_beside : (beside.Reachable ∧ beside.Apart ∧ Path.isAbsolute "/p/dist" = true ∧
      beside.files.contains "/p/dist" = false) ∧
    ∃ m', outcome (store.prune "/p/dist" beside)
        = (.ok (beside.dirs.contains "/p/dist" && !m'.dirs.contains "/p/dist"), m') ∧
      (∀ fuel, store.depth beside < fuel →
        outcome (store.pruneWithin fuel "/p/dist" beside) = outcome (store.prune "/p/dist" beside)) ∧
      m'.files = beside.files ∧
      ∀ q, m'.dirs.contains q = true ↔ beside.dirs.contains q = true ∧
        ¬ (q.startsWith "/p/dist" = true ∧ ∀ f, beside.files.contains f = true → ¬ q.Above f) := by
  have hm : beside.Reachable := (reachable_ofFiles _).step _
  have hapart : beside.Apart := by decide +kernel
  have hd : Path.isAbsolute "/p/dist" = true := by decide +kernel
  have hfile : beside.files.contains "/p/dist" = false := by decide +kernel
  exact ⟨⟨hm, hapart, hd, hfile⟩, prune_exact hm hapart hd hfile⟩

end Files.Memory

end Typings
