import Typings.Output.Layout
import Typings.Proofs.Path.Parting

/-!
# `References` — specifiers of files that move

A recorded declaration names its targets by the way from the directory of the record, and is then written
to another directory.  Both move alike: what the record shares with the directory that records are moved
from is replaced by the directory they are moved to, and what lies beside it is reached by the same steps
up.  So the old specifier leads from the new directory to the place where its target is written
(`Layout.resolve_relative_finalPath`), also where the steps up go past the root.

* `Path.resolve_relative_moved`: a way from a moved directory leads to the moved target.
* `Path.resolve_dotRelative`: a leading `./` does not change where a specifier leads.
-/

namespace Typings

namespace Path

/-! ## Ways that move -/

/-- Steps up from below a directory first come to the directory. -/
theorem resolve_climb_below {other : Path} {es front down : List Text} (hes : ∀ n ∈ es, ValidName n)
    (hfront : ∀ n ∈ front, ValidName n) (hdown : ∀ n ∈ down, ValidName n)
    (ho : other.normalize = ofNames es) (k : Nat) :
    (ofNames (es ++ front)).resolve (ofComponents (climb (k + front.length) down))
      = other.resolve (ofComponents (climb k down)) := by
  have hboth : ∀ n ∈ es ++ front, ValidName n := fun n hn =>
    (List.mem_append.mp hn).elim (hes n) (hfront n)
  refine eq_of_stack_eq (normalize_resolve _ _) (normalize_resolve _ _) ?_
  rw [stack_resolve_climb hboth (normalize_ofNames hboth) _ hdown, stack_resolve_climb hes ho _ hdown]
  have hsplit : List.replicate (k + front.length) Component.parent
      = List.replicate front.length .parent ++ List.replicate k .parent := by
    rw [Nat.add_comm, List.replicate_append_replicate]
  have hnames : (names (es ++ front)).reverse ++ [Component.root]
      = (names front).reverse ++ ((names es).reverse ++ [.root]) := by
    simp [names]
  rw [hsplit, List.foldl_append, hnames, foldl_parents]

/-- The way between two places inside a directory is the way between them inside another. -/
theorem resolve_relative_inside {target : Path} {ds es front down : List Text}
    (hds : ∀ n ∈ ds, ValidName n) (hes : ∀ n ∈ es, ValidName n) (hfront : ∀ n ∈ front, ValidName n)
    (hdown : ∀ n ∈ down, ValidName n) (ht : target.normalize = ofNames (ds ++ down)) :
    (ofNames (es ++ front)).resolve ((ofNames (ds ++ front)).relative target) = ofNames (es ++ down) := by
  have hvalid : ∀ {fs gs : List Text}, (∀ n ∈ fs, ValidName n) → (∀ n ∈ gs, ValidName n) →
      ∀ n ∈ fs ++ gs, ValidName n := by
    intro fs gs hfs hgs n hn
    exact (List.mem_append.mp hn).elim (hfs n) (hgs n)
  obtain ⟨shared, down', up', hdown', hfront', hpart⟩ := dropCommon_names down front
  rw [dropCommon_cons_self] at hpart
  have hway : ∀ {fs : List Text} {t : Path}, (∀ n ∈ fs, ValidName n) →
      t.normalize = ofNames (fs ++ down) →
      (ofNames (fs ++ front)).relative t = ofComponents (climb up'.length down') := by
    intro fs t hfs htn
    refine relative_of_dropCommon (hvalid hfs hfront) (hvalid hfs hdown)
      (normalize_ofNames (hvalid hfs hfront)) htn ?_
    rw [names, names, List.map_append, List.map_append, dropCommon_front]
    exact hpart
  have hmoved : (ofNames (es ++ down)).normalize = ofNames (es ++ down) :=
    normalize_ofNames (hvalid hes hdown)
  rw [hway hds ht, ← hway hes hmoved, resolve_relative (isAbsolute_ofNames (hvalid hes hdown)), hmoved]

/-- **A way from a moved directory leads to the moved target.**  A file inside `dir` is moved to `other`;
    the way from its old directory to any absolute place leads from its new directory to where that place
    is moved, whether it lies inside `dir` or not. -/
theorem resolve_relative_moved {dir other p q : Path} (hd : dir.isAbsolute = true)
    (ho : other.isAbsolute = true) (hp : p.normalize = p) (hin : p.StrictlyWithin dir)
    (hq : q.isAbsolute = true) :
    (other.resolve (dir.relative p)).parentDir.resolve (p.parentDir.relative q)
      = other.resolve (dir.relative q) := by
  obtain ⟨es, hes, hon⟩ := exists_ofNames ho
  obtain ⟨ts, hts, hqn⟩ := exists_ofNames hq
  obtain ⟨ds, front, n, hns, hdn, hpn⟩ := exists_strictlyWithin hd hin
  have hds : ∀ m ∈ ds, ValidName m := fun m hm => hns m (List.mem_append_left _ hm)
  have hbelow : ∀ m ∈ front ++ [n], ValidName m := fun m hm => hns m (List.mem_append_right _ hm)
  have hfront : ∀ m ∈ front, ValidName m := fun m hm => hbelow m (List.mem_append_left _ hm)
  have hboth : ∀ {fs : List Text}, (∀ m ∈ fs, ValidName m) → ∀ m ∈ fs ++ front, ValidName m := by
    intro fs hfs m hm
    exact (List.mem_append.mp hm).elim (hfs m) (hfront m)
  have hfile : ∀ {fs : List Text}, (∀ m ∈ fs, ValidName m) → ∀ m ∈ fs ++ front ++ [n], ValidName m := by
    intro fs hfs m hm
    rw [List.append_assoc] at hm
    exact (List.mem_append.mp hm).elim (hfs m) (hbelow m)
  -- The two directories of the file have the names of the front behind those they are moved between.
  have hold : p.parentDir = ofNames (ds ++ front) := by
    rw [← hp, hpn, ← List.append_assoc, parentDir_ofNames (hfile hds)]
  have hnew : (other.resolve (dir.relative p)).parentDir = ofNames (es ++ front) := by
    rw [resolve_relative_below hds hes hbelow hdn hon hpn, ← List.append_assoc,
      parentDir_ofNames (hfile hes)]
  rw [hold, hnew]
  obtain ⟨common, down, up, rfl, rfl, hpart⟩ := dropCommon_names ts ds
  rw [dropCommon_cons_self] at hpart
  have hdown : ∀ m ∈ down, ValidName m := fun m hm => hts m (List.mem_append_right _ hm)
  by_cases hup : up = []
  · -- The target lies inside the directory.
    subst hup
    rw [List.append_nil] at hds hdn ⊢
    rw [resolve_relative_inside hds hes hfront hdown hqn,
      resolve_relative_below hds hes hdown hdn hon hqn]
  · -- It lies beside the directory: from below, the way first goes up to the directory.
    have hnames : names up ≠ [] := by
      intro hnil
      exact hup (List.map_eq_nil_iff.mp hnil)
    have hlong : dropCommon (names (common ++ down)) (names (common ++ up ++ front))
        = (names down, names (up ++ front)) := by
      have happend := dropCommon_append_of_ne_nil (names front) (congrArg Prod.snd hpart) hnames
      rw [hpart] at happend
      simpa [names] using happend
    rw [relative_of_dropCommon (hboth hds) hts (normalize_ofNames (hboth hds)) hqn hlong,
      relative_of_dropCommon hds hts hdn hqn hpart, List.length_append]
    exact resolve_climb_below hes hfront hdown hon up.length

/-! ## Specifiers -/

theorem steps_dotRelative {t : Text} : steps ⟨dotRelative t⟩ = steps ⟨t⟩ := by
  unfold dotRelative
  split
  · rename_i h
    rw [List.isEmpty_iff.mp h]
    rfl
  · split
    · rfl
    · show steps ⟨['.'] ++ '/' :: t⟩ = steps ⟨t⟩
      rw [steps, List.splitOn_append_cons_self]
      rfl

theorem isAbsolute_dotRelative {t : Text} (h : isAbsolute ⟨t⟩ = false) :
    isAbsolute ⟨dotRelative t⟩ = false := by
  unfold dotRelative
  split
  · rfl
  · split
    · exact h
    · rfl

/-- A leading `./` does not change where a specifier leads. -/
theorem resolve_dotRelative {t : Text} (h : isAbsolute ⟨t⟩ = false) (base : Path) :
    base.resolve ⟨dotRelative t⟩ = base.resolve ⟨t⟩ := by
  refine eq_of_stack_eq (normalize_resolve _ _) (normalize_resolve _ _) ?_
  rw [stack_resolve_of_relative (isAbsolute_dotRelative h), stack_resolve_of_relative h,
    steps_dotRelative]

end Path

/-- The specifier of an absolute target leads there by the way. -/
theorem Declaration.resolve_seenFrom {dir target : Path} (hd : dir.isAbsolute = true)
    (ht : target.isAbsolute = true) (hplain : target.Plain) (base : Path) :
    base.resolve ⟨seenFrom dir target.text⟩ = base.resolve (dir.relative target) := by
  have hway : seenFrom dir target.text = dotRelative (dir.relative target).text := by
    rw [seenFrom, if_pos ht, (hplain.relative dir).toSlash]
  rw [hway]
  exact Path.resolve_dotRelative (Path.isAbsolute_relative hd ht) base

namespace Layout

theorem finalPath_eq {l : Layout} (h : l.cleanComponents = false) (p : Path) :
    l.finalPath p = l.outDir.resolve (l.entryRoot.relative p) := by
  rw [finalPath, sourcePath, if_neg (by rw [h]; decide)]

/-- **Relative specifiers survive the move to the output directory.**  From the directory that a record is
    written to, the way from the directory of the record to any absolute place leads to where that place
    is written; and so does the specifier that the text of the record names the place by. -/
theorem resolve_relative_finalPath {l : Layout} {f t : Path} (hclean : l.cleanComponents = false)
    (hentry : l.entryRoot.isAbsolute = true) (hout : l.outDir.isAbsolute = true)
    (hf : f.normalize = f) (hin : f.StrictlyWithin l.entryRoot) (ht : t.isAbsolute = true) :
    (l.finalPath f).parentDir.resolve (f.parentDir.relative t) = l.finalPath t ∧
      (t.Plain →
        (l.finalPath f).parentDir.resolve ⟨Declaration.seenFrom f.parentDir t.text⟩ = l.finalPath t) := by
  have hmove : (l.finalPath f).parentDir.resolve (f.parentDir.relative t) = l.finalPath t := by
    rw [finalPath_eq hclean, finalPath_eq hclean]
    exact Path.resolve_relative_moved hentry hout hf hin ht
  refine ⟨hmove, fun hplain => ?_⟩
  have hdir : f.parentDir.isAbsolute = true := by
    rw [← hf]
    exact hin.isAbsolute_parentDir hentry
  rw [Declaration.resolve_seenFrom hdir ht hplain, hmove]

/-- Records of a deep directory that are written right below the root. -/
def shallowLayout : Layout where
  steps := {}
  cleanComponents := false
  currentDir := "/p/lib/src"
  publicRoot := "/p/lib/src"
  entryRoot := "/p/lib/src/"
  outDir := "/dist"

/-- The way to a place beside the entry root goes past the root of the output tree. -/
theorem resolve_relative_finalPath_shallow :
    Path.StrictlyWithin "/p/lib/src/ui/button.d.ts" shallowLayout.entryRoot ∧
      (Path.parentDir "/p/lib/src/ui/button.d.ts").relative "/p/types/base" = "../../../types/base" ∧
      shallowLayout.finalPath "/p/types/base" = "/types/base" ∧
      ((shallowLayout.finalPath "/p/lib/src/ui/button.d.ts").parentDir.resolve
          ((Path.parentDir "/p/lib/src/ui/button.d.ts").relative "/p/types/base")
        = shallowLayout.finalPath "/p/types/base" ∧
      (Path.Plain "/p/types/base" →
        (shallowLayout.finalPath "/p/lib/src/ui/button.d.ts").parentDir.resolve
            ⟨Declaration.seenFrom (Path.parentDir "/p/lib/src/ui/button.d.ts")
              (Path.text "/p/types/base")⟩
          = shallowLayout.finalPath "/p/types/base")) :=
  ⟨by decide +kernel, by decide +kernel, by decide +kernel,
    resolve_relative_finalPath rfl (by decide +kernel) (by decide +kernel) (by decide +kernel)
      (by decide +kernel) (by decide +kernel)⟩

end Layout

end Typings
