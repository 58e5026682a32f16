import Typings.Proofs.Path.Relative

/-!
# `Below` — places inside a directory

A folded absolute path is a list of names below the root.  What lies inside a directory has the
directory's names in front, so it is moved to another directory by putting that one's names in front
instead, and moved back the same way (`resolve_relative_below`).  The place a file is moved to keeps its
name, and the directory it is moved to leads back to the one it came from (`below_parentDir`).

* `Path.ofNames`: the folded path with the given names.
* `parentDir_ofComponents`, `parentDir_ofComponents_root`: the parent of a plain spelling.
* `parentDir_ofNames`, `fileName?_ofNames`: the parent of a place and its last name.
* `isWithin_iff`: containment as names in front.
* `StrictlyWithin`: places inside a directory other than itself.
* `fileName?_resolve`: resolving keeps the file name.
* `Path.Plain`: paths without backslashes; resolving, going up and the way between two keep it.
-/

namespace Typings

namespace Path

/-! ## Names below the root -/

/-- The place that some names lead to from the root. -/
def ofNames (ns : List Text) : Path := ofComponents (.root :: names ns)

/-- An absolute path folds to its names. -/
theorem exists_ofNames {p : Path} (h : p.isAbsolute = true) :
    ∃ ns, (∀ n ∈ ns, ValidName n) ∧ p.normalize = ofNames ns := by
  obtain ⟨ns, hns, hst⟩ := stack_reverse_of_isAbsolute h
  refine ⟨ns, hns, ?_⟩
  rw [normalize_eq, hst, ofNames]

section

variable {ns : List Text} (h : ∀ n ∈ ns, ValidName n)

include h

/-- The components of names below the root are the root and the names. -/
theorem components_ofNames : (ofNames ns).components = .root :: names ns :=
  (components_ofComponents_root (step_of_mem_names h)).1

/-- Names below the root make an absolute path. -/
theorem isAbsolute_ofNames : (ofNames ns).isAbsolute = true :=
  (components_ofComponents_root (step_of_mem_names h)).2

/-- On the stack the names lie on the root, the last of them on top. -/
theorem stack_ofNames : (ofNames ns).stack = (names ns).reverse ++ [.root] := by
  rw [stack, components_ofNames h, List.foldl_cons]
  exact foldl_names ns [.root]

/-- Such a path is folded. -/
theorem normalize_ofNames : (ofNames ns).normalize = ofNames ns := by
  rw [normalize_eq, stack_ofNames h, ofNames]
  simp

/-- Such a path is spelled with a slash in front of each name. -/
theorem text_ofNames : (ofNames ns).text = '/' :: List.intercalate ['/'] ns := by
  have hmap : (names ns).map Component.text = ns := by
    rw [names, List.map_map]
    exact List.map_id _
  rw [ofNames, text_ofComponents_root (step_of_mem_names h), hmap]

end

/-- Names are told apart as components as they are as texts. -/
theorem names_inj {ns ms : List Text} : names ns = names ms ↔ ns = ms :=
  List.map_inj_right fun _ _ => Component.name.inj

/-- Different names lead to different paths. -/
theorem ofNames_inj {ns ms : List Text} (hns : ∀ n ∈ ns, ValidName n) (hms : ∀ n ∈ ms, ValidName n) :
    ofNames ns = ofNames ms ↔ ns = ms := by
  refine ⟨fun h => ?_, congrArg ofNames⟩
  have hcomponents := congrArg components h
  rw [components_ofNames hns, components_ofNames hms, List.cons.injEq, names_inj] at hcomponents
  exact hcomponents.2

/-! ## Parents and file names -/

/-- Steps are pieces that say something, so none of them is dropped. -/
theorem dropSilent_texts {cs : List Component} (h : ∀ c ∈ cs, c.Step) (leading : Bool) :
    dropSilent leading (cs.map Component.text) = cs.map Component.text := by
  cases cs with
  | nil => rfl
  | cons c cs =>
      have hpiece := pieceComponent?_text (h c List.mem_cons_self)
      cases cs with
      | nil => simp [dropSilent, hpiece]
      | cons d cs => simp [dropSilent, hpiece]

/-- The parent of a path that is spelled by its steps is spelled by all of them but the last. -/
theorem parent?_of_texts {p : Path} {cs : List Component} {c : Component} (h : ∀ d ∈ cs ++ [c], d.Step)
    (hbody : (if p.isAbsolute then p.text.drop 1 else p.text)
      = List.intercalate ['/'] ((cs ++ [c]).map Component.text)) :
    p.parent? = some ⟨(if p.isAbsolute then ['/'] else []) ++
      List.intercalate ['/'] (cs.map Component.text)⟩ := by
  have hreverse {ds : List Component} (hds : ∀ d ∈ ds, d.Step) :
      dropSilent (!p.isAbsolute) (ds.map Component.text).reverse = (ds.map Component.text).reverse := by
    rw [← List.map_reverse]
    exact dropSilent_texts (fun d hd => hds d (List.mem_reverse.mp hd)) _
  have hcs := (List.forall_mem_append.mp h).1
  unfold parent?
  dsimp only
  rw [hbody, splitOn_intercalate_text h (by simp), hreverse h, List.map_append, List.reverse_append,
    List.map_singleton, List.reverse_singleton, List.singleton_append]
  dsimp only
  rw [hreverse hcs, List.reverse_reverse]
  cases p.isAbsolute <;> rfl

/-- The directory of a spelled relative path is spelled without the last step. -/
theorem parentDir_ofComponents {cs : List Component} {c : Component} (h : ∀ d ∈ cs ++ [c], d.Step) :
    (ofComponents (cs ++ [c])).parentDir = ofComponents cs := by
  have hrel := (components_ofComponents h).2
  have htext := (text_ofComponents (text_ne_nil_of_step h)).1
  have hcs := (text_ofComponents (text_ne_nil_of_step (List.forall_mem_append.mp h).1)).1
  rw [parentDir, parent?_of_texts h (by rw [if_neg (by simp [hrel]), htext]), hrel, Option.getD_some,
    if_neg Bool.false_ne_true, List.nil_append, ← hcs]

/-- The directory of a spelled absolute path is spelled without the last step. -/
theorem parentDir_ofComponents_root {cs : List Component} {c : Component} (h : ∀ d ∈ cs ++ [c], d.Step) :
    (ofComponents (.root :: (cs ++ [c]))).parentDir = ofComponents (.root :: cs) := by
  have habs := (components_ofComponents_root h).2
  have htext := text_ofComponents_root h
  have hcs := text_ofComponents_root (List.forall_mem_append.mp h).1
  rw [parentDir, parent?_of_texts h (by rw [if_pos habs, htext]; rfl), habs, Option.getD_some, if_pos rfl,
    List.singleton_append, ← hcs]

/-- The directory of a path below the root lacks its last name. -/
theorem parentDir_ofNames {ns : List Text} {n : Text} (h : ∀ m ∈ ns ++ [n], ValidName m) :
    (ofNames (ns ++ [n])).parentDir = ofNames ns := by
  have hsteps := step_of_mem_names h
  rw [names, List.map_append] at hsteps
  rw [ofNames, names, List.map_append]
  exact parentDir_ofComponents_root hsteps

/-- The last name is the file name. -/
theorem fileName?_ofNames {ns : List Text} {n : Text} (h : ∀ m ∈ ns ++ [n], ValidName m) :
    (ofNames (ns ++ [n])).fileName? = some n := by
  have hlast : (ofNames (ns ++ [n])).components.getLast? = some (.name n) := by
    rw [components_ofNames h, names, List.map_append, ← List.cons_append]
    exact List.getLast?_concat
  rw [fileName?, hlast]

/-- Resolving keeps the file name. -/
theorem fileName?_resolve {p : Path} {n : Text} (h : p.fileName? = some n) (base : Path) :
    (base.resolve p).fileName? = some n := by
  obtain ⟨front, hfront⟩ := fileName?_eq_some_iff.1 h
  have htop : ∃ st, (base.resolve p).stack = .name n :: st := by
    by_cases ha : p.isAbsolute = true
    · rw [stack_resolve_of_isAbsolute ha, stack_of_isAbsolute ha, hfront, List.foldl_append]
      exact ⟨_, rfl⟩
    · rw [stack_resolve_of_relative (by simpa using ha), hfront, List.foldl_append]
      exact ⟨_, rfl⟩
  obtain ⟨st, hst⟩ := htop
  have hlast : (base.resolve p).components.getLast? = some (.name n) := by
    rw [← normalize_resolve, components_normalize, hst, List.reverse_cons, List.getLast?_concat]
  rw [fileName?, hlast]

/-- Whether a path is a source map is decided by its file name. -/
theorem isSourceMap_congr {p q : Path} (h : p.fileName? = q.fileName?) :
    p.isSourceMap = q.isSourceMap := by
  rw [isSourceMap, isSourceMap, extension?, extension?, h]

/-- A source map has a file name, since its ending is part of one. -/
theorem fileName?_of_isSourceMap {p : Path} (h : p.isSourceMap = true) :
    ∃ n, p.fileName? = some n := by
  cases hn : p.fileName? with
  | none => simp [isSourceMap, extension?, hn] at h
  | some n => exact ⟨n, rfl⟩

/-! ## Inside a directory -/

/-- A path starts with a directory if the components do: a name is never cut in two. -/
theorem startsWith_iff_components {p dir : Path} :
    p.startsWith dir = true ↔ dir.components <+: p.components :=
  List.isPrefixOf_iff_prefix

/-- What lies inside a directory has the directory's names in front. -/
theorem isWithin_iff {p dir : Path} {ns ds : List Text} (hns : ∀ n ∈ ns, ValidName n)
    (hds : ∀ n ∈ ds, ValidName n) (hp : p.normalize = ofNames ns) (hd : dir.normalize = ofNames ds) :
    p.isWithin dir = true ↔ ∃ down, ns = ds ++ down := by
  rw [isWithin, startsWith, hp, hd, components_ofNames hns, components_ofNames hds,
    List.isPrefixOf_iff_prefix, List.cons_prefix_cons]
  constructor
  · rintro ⟨-, down, hdown⟩
    obtain ⟨front, back, hsplit, hfront, -⟩ := List.map_eq_append_iff.1 hdown.symm
    exact ⟨back, by rw [hsplit, names_inj.1 hfront]⟩
  · rintro ⟨down, rfl⟩
    exact ⟨rfl, names down, by rw [names, names, names, List.map_append]⟩

/-- What lies inside an absolute directory is absolute. -/
theorem isAbsolute_of_isWithin {p dir : Path} (hd : dir.isAbsolute = true)
    (h : p.isWithin dir = true) : p.isAbsolute = true := by
  have hroot : .root ∈ dir.normalize.components := by
    rw [← isAbsolute_iff_root_mem, isAbsolute_normalize, hd]
  have hmem := (List.isPrefixOf_iff_prefix.1 h).subset hroot
  rwa [← isAbsolute_iff_root_mem, isAbsolute_normalize] at hmem

/-- What is behind a common front is all that differs. -/
theorem dropCommon_append (front down : List Component) :
    dropCommon (front ++ down) front = (down, []) := by
  induction front with
  | nil => cases down <;> rfl
  | cons c front ih => rw [List.cons_append, dropCommon, if_pos (by simp), ih]

/-- **What lies inside a directory is moved to another by its names.** -/
theorem resolve_relative_below {dir other p : Path} {ds es down : List Text}
    (hds : ∀ n ∈ ds, ValidName n) (hes : ∀ n ∈ es, ValidName n) (hdown : ∀ n ∈ down, ValidName n)
    (hd : dir.normalize = ofNames ds) (ho : other.normalize = ofNames es)
    (hp : p.normalize = ofNames (ds ++ down)) :
    other.resolve (dir.relative p) = ofNames (es ++ down) := by
  have hboth : ∀ {fs : List Text}, (∀ n ∈ fs, ValidName n) → ∀ n ∈ fs ++ down, ValidName n := by
    intro fs hfs n hn
    exact (List.mem_append.1 hn).elim (hfs n) (hdown n)
  have hstep := step_of_mem_names hdown
  have hrel : dir.relative p = ofComponents (names down) := by
    have hdrop : dropCommon (ofNames (ds ++ down)).components (ofNames ds).components
        = (names down, names []) := by
      rw [components_ofNames (hboth hds), components_ofNames hds, names, List.map_append,
        ← List.cons_append]
      exact dropCommon_append _ _
    have hdiff := difference?_of_dropCommon (isAbsolute_ofNames (hboth hds))
      (isAbsolute_ofNames hds) hdrop
    rw [relative, hp, hd, hdiff, Option.getD_some]
    rfl
  refine eq_of_stack_eq (normalize_resolve _ _) (normalize_ofNames (hboth hes)) ?_
  have hother : other.stack = (names es).reverse ++ [.root] := by
    rw [← stack_normalize, ho, stack_ofNames hes]
  rw [hrel, stack_resolve_of_relative (components_ofComponents hstep).2, steps_ofComponents hstep,
    hother, foldl_names, stack_ofNames (hboth hes)]
  simp [names]

/-- **The directory that a file is moved to leads back to the one it came from**, and the file keeps
    its name. -/
theorem below_parentDir {dir other p : Path} (hd : dir.isAbsolute = true)
    (ho : other.isAbsolute = true) (hin : p.isWithin dir = true)
    (hne : p.normalize ≠ dir.normalize) :
    (other.resolve (dir.relative p)).fileName? = p.normalize.fileName? ∧
      dir.resolve (other.relative (other.resolve (dir.relative p)).parentDir) =
        p.normalize.parentDir := by
  obtain ⟨ds, hds, hdn⟩ := exists_ofNames hd
  obtain ⟨es, hes, hon⟩ := exists_ofNames ho
  obtain ⟨ns, hns, hpn⟩ := exists_ofNames (isAbsolute_of_isWithin hd hin)
  obtain ⟨down, rfl⟩ := (isWithin_iff hns hds hpn hdn).1 hin
  -- The file is not the directory, so there is a last name.
  rcases List.eq_nil_or_concat down with rfl | ⟨front, n, rfl⟩
  · exact absurd (by rw [hpn, hdn, List.append_nil]) hne
  · rw [List.concat_eq_append] at hns hpn
    have hdown : ∀ m ∈ front ++ [n], ValidName m := fun m hm => hns m (List.mem_append_right _ hm)
    have hfront : ∀ m ∈ front, ValidName m := fun m hm => hdown m (List.mem_append_left _ hm)
    have hkey := resolve_relative_below hds hes hdown hdn hon hpn
    rw [← List.append_assoc] at hkey hpn hns
    have hdir : ∀ m ∈ es ++ front, ValidName m := by
      intro m hm
      exact (List.mem_append.1 hm).elim (hes m) (hfront m)
    have hvalid : ∀ m ∈ es ++ front ++ [n], ValidName m := by
      intro m hm
      exact (List.mem_append.1 hm).elim (hdir m) fun hm => hdown m (List.mem_append_right _ hm)
    constructor
    · rw [hkey, hpn, fileName?_ofNames hvalid, fileName?_ofNames hns]
    · rw [hkey, hpn, parentDir_ofNames hvalid, parentDir_ofNames hns]
      exact resolve_relative_below hes hds hfront hon hdn (normalize_ofNames hdir)

/-- Silent pieces are dropped from one end only. -/
theorem dropSilent_suffix (leading : Bool) (pieces : List Text) :
    dropSilent leading pieces <:+ pieces := by
  fun_induction dropSilent leading pieces with
  | case1 => exact List.suffix_refl _
  | case2 piece hdot => exact List.suffix_refl _
  | case3 piece hdot hnone => exact List.nil_suffix
  | case4 piece hdot hsome => exact List.suffix_refl _
  | case5 piece rest _ hnone ih => exact ih.trans (List.suffix_cons piece rest)
  | case6 piece rest _ hsome => exact List.suffix_refl _

/-- The parent of a relative path is relative. -/
theorem isAbsolute_parentDir_of_relative {p : Path} (h : p.isAbsolute = false) :
    p.parentDir.isAbsolute = false := by
  unfold parentDir parent?
  simp only [h, Bool.not_false, Bool.false_eq_true, if_false]
  split
  · rfl
  · next last front hpieces =>
      rw [Option.getD_some]
      have hkept : (dropSilent true front).reverse <+: List.splitOn '/' p.text := by
        rw [← List.reverse_suffix, List.reverse_reverse]
        refine (dropSilent_suffix true front).trans ((List.suffix_cons last front).trans ?_)
        rw [← hpieces]
        exact dropSilent_suffix true _
      cases hk : (dropSilent true front).reverse with
      | nil => rfl
      | cons piece more =>
          -- The first piece that is kept is the first of the path.
          rw [hk] at hkept
          cases ht : p.text with
          | nil =>
              rw [ht, List.splitOn_nil] at hkept
              obtain ⟨rfl, hmore⟩ := List.cons_prefix_cons.mp hkept
              rw [List.prefix_nil.mp hmore]
              rfl
          | cons c t =>
              have hc : c ≠ '/' := by
                rintro rfl
                rw [isAbsolute, ht] at h
                exact absurd h (by simp)
              obtain ⟨piece', rest, -, hsplit⟩ := Text.splitOn_cons_of_ne hc t
              rw [ht, hsplit] at hkept
              obtain ⟨rfl, -⟩ := List.cons_prefix_cons.mp hkept
              cases more <;> simpa [isAbsolute] using hc

/-- A place inside a directory that is not the directory itself. -/
def StrictlyWithin (p dir : Path) : Prop := p.isWithin dir = true ∧ p.normalize ≠ dir.normalize

instance (p dir : Path) : Decidable (p.StrictlyWithin dir) := inferInstanceAs (Decidable (_ ∧ _))

/-- What has its parent inside a directory lies inside it, and is not the directory. -/
theorem strictlyWithin_of_parentDir {p dir : Path} (hd : dir.isAbsolute = true)
    (h : p.normalize.parentDir.isWithin dir = true) : p.StrictlyWithin dir := by
  have hparent := isAbsolute_of_isWithin hd h
  have hp : p.isAbsolute = true := by
    rw [← isAbsolute_normalize]
    by_contra hrel
    rw [isAbsolute_parentDir_of_relative (by simpa using hrel)] at hparent
    exact absurd hparent (by decide)
  obtain ⟨ns, hns, hpn⟩ := exists_ofNames hp
  obtain ⟨ds, hds, hdn⟩ := exists_ofNames hd
  rw [hpn] at h hparent
  rcases List.eq_nil_or_concat ns with rfl | ⟨front, n, rfl⟩
  · exact absurd hparent (by decide)
  · rw [List.concat_eq_append] at hns hpn h
    have hfront : ∀ m ∈ front, ValidName m := fun m hm => hns m (List.mem_append_left _ hm)
    rw [parentDir_ofNames hns] at h
    obtain ⟨down, rfl⟩ := (isWithin_iff hfront hds (normalize_ofNames hfront) hdn).mp h
    refine ⟨(isWithin_iff hns hds hpn hdn).mpr ⟨down ++ [n], List.append_assoc ..⟩, fun he => ?_⟩
    rw [hpn, hdn] at he
    have hlength := congrArg List.length ((ofNames_inj hns hds).mp he)
    simp at hlength

/-! ## Characters -/

/-- Joining brings no characters but a slash. -/
theorem mem_text_join {p q : Path} {d : Char} (h : d ∈ (p.join q).text) :
    d ∈ p.text ∨ d ∈ q.text ∨ d = '/' := by
  unfold join at h
  split at h
  · exact .inr (.inl h)
  · split at h
    · rcases List.mem_append.1 h with h | h
      · exact .inl h
      · exact .inr (.inl h)
    · rcases List.mem_append.1 h with h | h
      · rcases List.mem_append.1 h with h | h
        · exact .inl h
        · exact .inr (.inr (by simpa using h))
      · exact .inr (.inl h)

/-- Resolving brings no characters but slashes and dots. -/
theorem mem_text_resolve {base p : Path} {d : Char} (h : d ∈ (base.resolve p).text) :
    d ∈ base.text ∨ d ∈ p.text ∨ d = '/' ∨ d = '.' := by
  unfold resolve at h
  split at h
  · rcases mem_text_normalize h with h | h
    · exact .inr (.inl h)
    · exact .inr (.inr h)
  · rcases mem_text_normalize h with h | h
    · rcases mem_text_join h with h | h | h
      · exact .inl h
      · exact .inr (.inl h)
      · exact .inr (.inr (.inl h))
    · exact .inr (.inr h)

/-- The pieces that are kept were there. -/
theorem mem_of_mem_dropSilent {leading : Bool} {pieces : List Text} {t : Text}
    (h : t ∈ dropSilent leading pieces) : t ∈ pieces := by
  fun_induction dropSilent leading pieces with
  | case1 => exact h
  | case2 piece hdot => exact h
  | case3 piece hdot hnone => cases h
  | case4 piece hdot hsome => exact h
  | case5 piece rest _ hnone ih => exact List.mem_cons_of_mem _ (ih h)
  | case6 piece rest _ hsome => exact h

/-- The directory of a path brings no characters but a slash. -/
theorem mem_text_parentDir {p : Path} {d : Char} (h : d ∈ p.parentDir.text) :
    d ∈ p.text ∨ d = '/' := by
  unfold parentDir parent? at h
  simp only at h
  -- The body is the spelling behind the root.
  have hbody : ∀ e, e ∈ (if p.isAbsolute = true then p.text.drop 1 else p.text) → e ∈ p.text := by
    intro e he
    split at he
    · exact List.mem_of_mem_drop he
    · exact he
  split at h
  · cases h
  · next last front hpieces =>
      have hkept : ∀ e, e ∈ List.intercalate ['/'] (dropSilent (!p.isAbsolute) front).reverse →
          e ∈ p.text ∨ e = '/' := by
        intro e he
        rcases Text.mem_intercalate he with he | ⟨t, ht, he⟩
        · exact .inr (by simpa using he)
        · have hfront := mem_of_mem_dropSilent (List.mem_reverse.1 ht)
          have hpiece := mem_of_mem_dropSilent (hpieces ▸ List.mem_cons_of_mem last hfront)
          exact .inl (hbody e (Text.mem_of_mem_splitOn (List.mem_reverse.1 hpiece) he))
      rw [Option.getD_some] at h
      by_cases ha : p.isAbsolute = true
      · rw [if_pos ha] at h
        rcases List.mem_cons.1 h with h | h
        · exact .inr h
        · exact hkept d h
      · rw [if_neg ha] at h
        exact hkept d h

/-! ## Paths without backslashes -/

/-- A path that is spelled without a backslash. -/
def Plain (p : Path) : Prop := '\\' ∉ p.text

instance (p : Path) : Decidable p.Plain := inferInstanceAs (Decidable (_ ∉ _))

/-- Without backslashes in the base and the path there are none in what they resolve to. -/
theorem Plain.resolve {base p : Path} (hbase : base.Plain) (hp : p.Plain) :
    (base.resolve p).Plain := by
  intro h
  rcases mem_text_resolve h with h | h | h | h
  · exact hbase h
  · exact hp h
  · exact absurd h (by decide)
  · exact absurd h (by decide)

/-- The directory of a path without backslashes has none. -/
theorem Plain.parentDir {p : Path} (hp : p.Plain) : p.parentDir.Plain := by
  intro h
  rcases mem_text_parentDir h with h | h
  · exact hp h
  · exact absurd h (by decide)

/-- The way from a base to a target is made of names of the target, so it has no backslashes if the target has
    none. -/
theorem Plain.relative {target : Path} (ht : target.Plain) (base : Path) :
    (base.relative target).Plain := by
  intro h
  rcases mem_text_relative h with h | h | h
  · exact ht h
  · exact absurd h (by decide)
  · exact absurd h (by decide)

/-- A path without backslashes is written with slashes as it stands. -/
theorem Plain.toSlash {p : Path} (hp : p.Plain) : p.toSlash = p.text :=
  Text.replaceChar_of_not_mem hp

end Path

end Typings
