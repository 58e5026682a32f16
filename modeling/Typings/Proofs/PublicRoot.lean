import Typings.Proofs.Path.Parents
import Typings.PublicRoot

/-!
# `PublicRoot` — the deepest common directory

The search goes through the directories one by one.  It passes over one that lies below the directory
found so far, cuts that back to what it shares with any other, and ends early where nothing is shared.
All this is the meet of the directories in the order of beginnings: some components begin the result just
if they begin every directory (`prefix_publicRoot_iff`).  That law says all there is to say, since the
result is a folded path (`normalize_publicRoot`) and so is known from what begins it.

* `prefix_commonPrefix_iff`: what two lists have in common is their meet.
* `Path.NormalStack.suffix`, `Path.components_of_prefix`: what begins a folded path is a folded path.
* `prefix_sharedDir_iff`, `normalize_sharedDir`: the search.
* `isAbsolute_publicRoot_iff`: no files have no absolute public root.
* `publicRoot_deepest`: the public root is the deepest directory above the files, in whatever order and
  however often they are given.
-/

namespace Typings

/-! ## Common beginnings -/

/-- What begins two lists begins what they have in common, and nothing else does. -/
theorem prefix_commonPrefix_iff {s t u : List Component} :
    u <+: commonPrefix s t ↔ u <+: s ∧ u <+: t := by
  fun_induction commonPrefix s t generalizing u with
  | case1 a s b t heq ih =>
      obtain rfl := beq_iff_eq.mp heq
      cases u with
      | nil => simp
      | cons c u =>
          rw [List.cons_prefix_cons, List.cons_prefix_cons, List.cons_prefix_cons, ih, and_and_left]
  | case2 a s b t hne =>
      cases u with
      | nil => simp
      | cons c u =>
          rw [List.cons_prefix_cons, List.cons_prefix_cons, List.prefix_nil]
          refine ⟨nofun, ?_⟩
          rintro ⟨⟨rfl, -⟩, rfl, -⟩
          exact absurd (beq_self_eq_true c) hne
  | case3 s t hnil =>
      rw [List.prefix_nil]
      constructor
      · rintro rfl
        exact ⟨List.nil_prefix, List.nil_prefix⟩
      · rintro ⟨hs, ht⟩
        cases u with
        | nil => rfl
        | cons c u =>
            obtain ⟨s', rfl⟩ := hs
            obtain ⟨t', rfl⟩ := ht
            exact absurd rfl (hnil c (u ++ s') c (u ++ t') rfl)

theorem commonPrefix_prefix_left (s t : List Component) : commonPrefix s t <+: s :=
  (prefix_commonPrefix_iff.mp (List.prefix_refl _)).1

/-! ## Beginnings of folded paths -/

namespace Path

theorem NormalStack.suffix {st st' : List Component} (h : NormalStack st) (hs : st' <:+ st) :
    NormalStack st' := by
  induction h with
  | nil => exact List.suffix_nil.mp hs ▸ .nil
  | root =>
      rcases List.suffix_cons_iff.mp hs with rfl | hs
      · exact .root
      · exact List.suffix_nil.mp hs ▸ .nil
  | @parent st hst =>
      cases st' with
      | nil => exact .nil
      | cons c st' =>
          have hall : ∀ d ∈ c :: st', d = .parent := fun d hd =>
            (List.mem_cons.mp (hs.mem hd)).elim id (hst d)
          rw [hall c (by simp)]
          exact .parent fun d hd => hall d (by simp [hd])
  | name hn hst ih =>
      rcases List.suffix_cons_iff.mp hs with rfl | hs
      · exact .name hn hst
      · exact ih hs

/-- What begins a folded path is the list of components of a folded path. -/
theorem components_of_prefix {p : Path} {cs : List Component} (hp : p.normalize = p)
    (h : cs <+: p.components) :
    (ofComponents cs).components = cs ∧ (ofComponents cs).normalize = ofComponents cs := by
  rw [← hp, components_normalize, ← List.reverse_suffix, List.reverse_reverse] at h
  have hst := (normalStack_stack p).suffix h
  rw [← List.reverse_reverse cs]
  refine ⟨hst.components_eq, ?_⟩
  rw [normalize_eq, hst.stack_eq]

end Path

/-! ## The search -/

theorem normalize_sharedDir {root : Path} (hroot : root.normalize = root) (dirs : List Path) :
    (sharedDir root dirs).normalize = sharedDir root dirs := by
  fun_induction sharedDir root dirs with
  | case1 root => exact hroot
  | case2 root dir dirs hbelow ih => exact ih hroot
  | case3 root dir dirs hbeside shared hempty =>
      exact (Path.components_of_prefix hroot (commonPrefix_prefix_left ..)).2
  | case4 root dir dirs hbeside shared hsome ih =>
      exact ih (Path.components_of_prefix hroot (commonPrefix_prefix_left ..)).2

/-- Some components begin the directory that is found just if they begin all directories, those that the
    search does not come to included. -/
theorem prefix_sharedDir_iff {root : Path} (hroot : root.normalize = root) {dirs : List Path}
    {u : List Component} :
    u <+: (sharedDir root dirs).components ↔ u <+: root.components ∧ ∀ d ∈ dirs, u <+: d.components := by
  fun_induction sharedDir root dirs with
  | case1 root => simp
  | case2 root dir dirs hbelow ih =>
      have hdir : u <+: root.components → u <+: dir.components :=
        fun hu => hu.trans (Path.startsWith_iff_components.mp hbelow)
      rw [ih hroot, List.forall_mem_cons]
      exact ⟨fun ⟨hu, hall⟩ => ⟨hu, hdir hu, hall⟩, fun ⟨hu, _, hall⟩ => ⟨hu, hall⟩⟩
  | case3 root dir dirs hbeside shared hempty =>
      have hshared := (Path.components_of_prefix hroot (commonPrefix_prefix_left _ dir.components)).1
      have hnil : shared.components = [] := Path.text_eq_nil_iff.mp (List.isEmpty_iff.mp hempty)
      rw [hnil, List.prefix_nil, List.forall_mem_cons]
      constructor
      · rintro rfl
        simp
      · -- The two directories share nothing, so the others do not matter.
        rintro ⟨hu, hd, -⟩
        have hboth := prefix_commonPrefix_iff.mpr ⟨hu, hd⟩
        rwa [← hshared, hnil, List.prefix_nil] at hboth
  | case4 root dir dirs hbeside shared hsome ih =>
      obtain ⟨hshared, hnormal⟩ :=
        Path.components_of_prefix hroot (commonPrefix_prefix_left _ dir.components)
      rw [ih hnormal, List.forall_mem_cons, hshared, prefix_commonPrefix_iff, and_assoc]

/-! ## The public root -/

theorem normalize_publicRoot (files : List Path) :
    (publicRoot files).normalize = publicRoot files := by
  cases files with
  | nil => decide
  | cons f files => exact normalize_sharedDir (Path.normalize_normalize _) _

/-- Some components begin the public root just if they begin the directory of every file. -/
theorem prefix_publicRoot_iff {files : List Path} (h : files ≠ []) {u : List Component} :
    u <+: (publicRoot files).components ↔ ∀ f ∈ files, u <+: f.parentDir.normalize.components := by
  cases files with
  | nil => exact absurd rfl h
  | cons f files =>
      rw [List.forall_mem_cons]
      refine (prefix_sharedDir_iff (Path.normalize_normalize f.parentDir)).trans ?_
      rw [List.forall_mem_map]

/-- The public root of files in absolute directories is absolute, unless there are no files. -/
theorem isAbsolute_publicRoot_iff {files : List Path} (h : ∀ f ∈ files, f.parentDir.isAbsolute = true) :
    (publicRoot files).isAbsolute = true ↔ files ≠ [] := by
  constructor
  · rintro habs rfl
    exact absurd habs (by decide)
  · intro hne
    -- The root of the file tree begins every directory.
    have hroot : [.root] <+: (publicRoot files).components := by
      refine (prefix_publicRoot_iff hne).mpr fun f hf => ?_
      rw [Path.components_of_isAbsolute (by rw [Path.isAbsolute_normalize]; exact h f hf)]
      exact ⟨_, rfl⟩
    exact Path.isAbsolute_iff_root_mem.mpr (hroot.subset List.mem_cons_self)

/-- **The public root is the deepest common directory.**  It lies above the directory of every file, and
    whatever lies above all of them lies above it.  So only the set of files counts: their order and their
    repetitions do not. -/
theorem publicRoot_deepest {files : List Path} (h : files ≠ []) :
    (∀ f ∈ files, f.parentDir.normalize.startsWith (publicRoot files) = true) ∧
      (∀ dir : Path, (∀ f ∈ files, f.parentDir.normalize.startsWith dir = true) →
        (publicRoot files).startsWith dir = true) ∧
      ∀ files' : List Path, (∀ f, f ∈ files' ↔ f ∈ files) → publicRoot files' = publicRoot files := by
  refine ⟨?_, ?_, ?_⟩
  · intro f hf
    exact Path.startsWith_iff_components.mpr ((prefix_publicRoot_iff h).mp (List.prefix_refl _) f hf)
  · intro dir habove
    refine Path.startsWith_iff_components.mpr ((prefix_publicRoot_iff h).mpr fun f hf => ?_)
    exact Path.startsWith_iff_components.mp (habove f hf)
  · intro files' hsame
    have h' : files' ≠ [] := by
      obtain ⟨f, hf⟩ := List.exists_mem_of_ne_nil files h
      exact List.ne_nil_of_mem ((hsame f).mpr hf)
    -- The same components begin both, so each begins the other.
    have hbegin (u : List Component) :
        u <+: (publicRoot files').components ↔ u <+: (publicRoot files).components := by
      rw [prefix_publicRoot_iff h', prefix_publicRoot_iff h]
      exact forall_congr' fun f => imp_congr_left (hsame f)
    have hle := (hbegin _).mp (List.prefix_refl _)
    have hge := (hbegin _).mpr (List.prefix_refl _)
    refine Path.eq_of_same (normalize_publicRoot files') (normalize_publicRoot files) ?_
    exact Path.same_iff.mpr (hle.eq_of_length_le hge.length_le)

theorem publicRoot_deepest_lookAlikes :
    let files : List Path := ["/p/src/./ui/a.ts", "/p//src/ui/../ui-kit/b.ts", "/p/src/ui/deep/c.ts"]
    files ≠ [] ∧ publicRoot files = "/p/src" ∧
      (∀ f ∈ files, f.parentDir.normalize.startsWith (publicRoot files) = true) ∧
      (∀ dir : Path, (∀ f ∈ files, f.parentDir.normalize.startsWith dir = true) →
        (publicRoot files).startsWith dir = true) ∧
      ∀ files' : List Path, (∀ f, f ∈ files' ↔ f ∈ files) → publicRoot files' = publicRoot files :=
  ⟨by decide, by decide +kernel, publicRoot_deepest (by decide)⟩

end Typings
