import Typings.Proofs.Path.Below

/-!
# `Parting` — the way between two places that part

Two absolute places share some names and then part.  The way from one to the other goes up what only the
first has left, and down what only the second has left.  Followed from a third place, it takes as many
names off that one's end, none below the root, and puts the names of the second behind
(`resolve_relative_parted`).  A place inside a directory is the case without steps up
(`relative_below`, `relative_resolve_below`).

The way from a base leads to its target as long as all that it takes back are names, and between absolute
places this is always so.  A relative base may begin with steps up, and no step takes those back: a place
that is reached from there is at least as far up (`climbs_le_resolve`).  So the way to a relative target
leads there if and only if it starts at a relative base that is no farther up than the target
(`resolve_relative_iff`).  Between absolute places it goes up only when the target lies outside the base, so
that containment, which is decided on the components, is a fact about the way (`isWithin_iff_descends`).

* `Path.relative_of_dropCommon`, `Parted`, `exists_parted`: the names that are left on both sides.
* `Path.stack_resolve_climb`, `resolve_climb`: where steps up and names lead.
* `Path.exists_strictlyWithin`: the names of what lies strictly inside a directory.
* `Path.climbs`: how far up a path leads before it descends.
* `relative_inverse`: the way is an inverse of resolving, and depends on the folded places alone.
* `isWithin_iff_descends`: a place lies in a directory if the way to it has no step up.
-/

namespace Typings

namespace Path

/-! ## Where two places part -/

/-- A common first component is dropped. -/
theorem dropCommon_cons_self (c : Component) (s t : List Component) :
    dropCommon (c :: s) (c :: t) = dropCommon s t := by
  rw [dropCommon, if_pos (by simp)]

/-- A common front is dropped. -/
theorem dropCommon_front (front s t : List Component) :
    dropCommon (front ++ s) (front ++ t) = dropCommon s t := by
  induction front with
  | nil => rfl
  | cons c front ih =>
      rw [List.cons_append, List.cons_append, dropCommon_cons_self]
      exact ih

/-- Lists that have parted stay parted when the second goes on. -/
theorem dropCommon_append_of_ne_nil {s t up : List Component} (x : List Component)
    (h : (dropCommon s t).2 = up) (hne : up ≠ []) :
    dropCommon s (t ++ x) = ((dropCommon s t).1, up ++ x) := by
  induction s generalizing t with
  | nil =>
      subst h
      cases t with
      | nil => exact absurd rfl hne
      | cons b t => rfl
  | cons a s ih =>
      cases t with
      | nil => exact absurd h.symm hne
      | cons b t =>
          by_cases hab : a = b
          · subst hab
            rw [dropCommon_cons_self] at h
            rw [List.cons_append, dropCommon_cons_self, dropCommon_cons_self]
            exact ih h
          · have hstop (u : List Component) : dropCommon (a :: s) (b :: u) = (a :: s, b :: u) := by
              rw [dropCommon, if_neg (by simpa using hab)]
            rw [hstop] at h
            rw [List.cons_append, hstop, hstop, ← h]
            rfl

section

variable {base target : Path} {bs ts down up : List Text}
  (hbs : ∀ n ∈ bs, ValidName n) (hts : ∀ n ∈ ts, ValidName n)
  (hbase : base.normalize = ofNames bs) (htarget : target.normalize = ofNames ts)

include hbs hts hbase htarget

/-- The way between two places that part after some names: up from what is left of the base, down to
    what is left of the target. -/
theorem relative_of_dropCommon (h : dropCommon (names ts) (names bs) = (names down, names up)) :
    base.relative target = ofComponents (climb up.length down) := by
  have hdrop : dropCommon (ofNames ts).components (ofNames bs).components = (names down, names up) := by
    rw [components_ofNames hts, components_ofNames hbs, dropCommon_cons_self, h]
  have hdiff := difference?_of_dropCommon (isAbsolute_ofNames hts) (isAbsolute_ofNames hbs) hdrop
  rw [relative, hbase, htarget, hdiff, Option.getD_some]

end

/-- Two lists of names without a common beginning. -/
inductive Parted : List Text → List Text → Prop where
  | below (ns : List Text) : Parted ns []
  | above (ns : List Text) : Parted [] ns
  | beside {n m : Text} (ns ms : List Text) (h : n ≠ m) : Parted (n :: ns) (m :: ms)

/-- Two lists of names part after what they have in common. -/
theorem exists_parted (ts bs : List Text) :
    ∃ common down up, ts = common ++ down ∧ bs = common ++ up ∧ Parted down up := by
  induction ts generalizing bs with
  | nil => exact ⟨[], [], bs, rfl, rfl, .above bs⟩
  | cons t ts ih =>
      cases bs with
      | nil => exact ⟨[], t :: ts, [], rfl, rfl, .below _⟩
      | cons b bs =>
          by_cases h : t = b
          · subst h
            obtain ⟨common, down, up, rfl, rfl, hparted⟩ := ih bs
            exact ⟨t :: common, down, up, rfl, rfl, hparted⟩
          · exact ⟨[], t :: ts, b :: bs, rfl, rfl, .beside ts bs h⟩

/-- Parted lists of one length are both empty, or stay parted when the first goes on. -/
theorem Parted.append {down up : List Text} (h : Parted down up) (hlen : down.length = up.length)
    (x : List Text) : down = up ∨ Parted (down ++ x) up := by
  cases h with
  | below => exact .inl (List.eq_nil_of_length_eq_zero hlen)
  | above => exact .inl (List.eq_nil_of_length_eq_zero hlen.symm).symm
  | beside ns ms hne => exact .inr (.beside (ns ++ x) ms hne)

/-- Of parted lists the first begins the second only where nothing is left of it. -/
theorem Parted.eq_nil_of_prefix {down up : List Text} (h : Parted down up) (hpre : down <+: up) :
    down = [] := by
  cases h with
  | below => exact List.prefix_nil.mp hpre
  | above => rfl
  | beside ns ms hne => exact absurd (List.cons_prefix_cons.mp hpre).1 hne

/-- Of ways that part at once nothing is dropped. -/
theorem Parted.dropCommon {down up : List Text} (h : Parted down up) :
    dropCommon (names down) (names up) = (names down, names up) := by
  cases h with
  | below => cases down <;> rfl
  | above => rfl
  | beside ns ms hne =>
      rw [names, names, List.map_cons, List.map_cons, Path.dropCommon, if_neg]
      simpa using hne

/-- The way between two places whose names part. -/
theorem relative_of_parted {base target : Path} {common down up : List Text}
    (hup : ∀ n ∈ common ++ up, ValidName n) (hdown : ∀ n ∈ common ++ down, ValidName n)
    (hbase : base.normalize = ofNames (common ++ up))
    (htarget : target.normalize = ofNames (common ++ down)) (h : Parted down up) :
    base.relative target = ofComponents (climb up.length down) := by
  refine relative_of_dropCommon hup hdown hbase htarget ?_
  rw [names, names, List.map_append, List.map_append, dropCommon_front]
  exact h.dropCommon

/-! ## Steps up from a place -/

/-- The stack of a place that is reached by steps up and names from another. -/
theorem stack_resolve_climb {base : Path} {bs down : List Text} (hbs : ∀ n ∈ bs, ValidName n)
    (hbase : base.normalize = ofNames bs) (k : Nat) (hdown : ∀ n ∈ down, ValidName n) :
    (base.resolve (ofComponents (climb k down))).stack = (names down).reverse ++
      (List.replicate k Component.parent).foldl foldComponent ((names bs).reverse ++ [.root]) := by
  have hstep := step_of_mem_climb (k := k) hdown
  have hstack : base.stack = (names bs).reverse ++ [.root] := by
    rw [← stack_normalize, hbase, stack_ofNames hbs]
  rw [stack_resolve_of_relative (components_ofComponents hstep).2, steps_ofComponents hstep, hstack,
    climb, List.foldl_append, foldl_names]

/-- Steps up take names off the end; there is nothing above the root. -/
theorem foldl_replicate_parent (os : List Text) (k : Nat) :
    (List.replicate k Component.parent).foldl foldComponent ((names os).reverse ++ [.root])
      = (names (os.take (os.length - k))).reverse ++ [.root] := by
  induction k generalizing os with
  | zero => rw [Nat.sub_zero, List.take_length]; rfl
  | succ k ih =>
      rw [List.replicate_succ, List.foldl_cons]
      rcases List.eq_nil_or_concat os with rfl | ⟨front, n, rfl⟩
      · have hroot := ih []
        rw [List.take_nil] at hroot ⊢
        exact hroot
      · have hpop : foldComponent ((names (front.concat n)).reverse ++ [.root]) .parent
            = (names front).reverse ++ [.root] := by
          simp [names, foldComponent]
        have htake : (front.concat n).take ((front.concat n).length - (k + 1))
            = front.take (front.length - k) := by
          rw [List.concat_eq_append, List.length_append, List.length_singleton,
            Nat.add_sub_add_right, List.take_append_of_le_length (Nat.sub_le _ _)]
        rw [hpop, ih, htake]

/-- Where steps up and then names lead. -/
theorem resolve_climb {other : Path} {os down : List Text} (hos : ∀ n ∈ os, ValidName n)
    (hdown : ∀ n ∈ down, ValidName n) (ho : other.normalize = ofNames os) (k : Nat) :
    other.resolve (ofComponents (climb k down)) = ofNames (os.take (os.length - k) ++ down) := by
  have hvalid : ∀ n ∈ os.take (os.length - k) ++ down, ValidName n :=
    List.forall_mem_append.mpr ⟨fun n hn => hos n (List.mem_of_mem_take hn), hdown⟩
  refine eq_of_stack_eq (normalize_resolve _ _) (normalize_ofNames hvalid) ?_
  rw [stack_resolve_climb hos ho k hdown, foldl_replicate_parent, stack_ofNames hvalid]
  simp [names]

/-- **The way between two places, followed from a third.** -/
theorem resolve_relative_parted {dir other p : Path} {os common down up : List Text}
    (hos : ∀ n ∈ os, ValidName n) (hup : ∀ n ∈ common ++ up, ValidName n)
    (hdown : ∀ n ∈ common ++ down, ValidName n) (ho : other.normalize = ofNames os)
    (hd : dir.normalize = ofNames (common ++ up)) (hp : p.normalize = ofNames (common ++ down))
    (h : Parted down up) :
    other.resolve (dir.relative p) = ofNames (os.take (os.length - up.length) ++ down) := by
  rw [relative_of_parted hup hdown hd hp h]
  exact resolve_climb hos (fun n hn => hdown n (List.mem_append_right _ hn)) ho up.length

/-! ## Strictly inside a directory -/

/-- What lies strictly inside a directory has the directory's names in front, and a last name of its
    own. -/
theorem exists_strictlyWithin {dir p : Path} (hd : dir.isAbsolute = true) (h : p.StrictlyWithin dir) :
    ∃ ds front n, (∀ m ∈ ds ++ (front ++ [n]), ValidName m) ∧ dir.normalize = ofNames ds ∧
      p.normalize = ofNames (ds ++ (front ++ [n])) := by
  obtain ⟨hin, hne⟩ := h
  obtain ⟨ds, hds, hdn⟩ := exists_ofNames hd
  obtain ⟨ns, hns, hpn⟩ := exists_ofNames (isAbsolute_of_isWithin hd hin)
  obtain ⟨below, rfl⟩ := (isWithin_iff hns hds hpn hdn).mp hin
  rcases List.eq_nil_or_concat below with rfl | ⟨front, n, rfl⟩
  · exact absurd (by rw [hpn, hdn, List.append_nil]) hne
  · rw [List.concat_eq_append] at hns hpn
    exact ⟨ds, front, n, hns, hdn, hpn⟩

/-- The directory of what lies strictly inside a directory lies inside it. -/
theorem StrictlyWithin.isWithin_parentDir {dir p : Path} (hd : dir.isAbsolute = true)
    (h : p.StrictlyWithin dir) : p.normalize.parentDir.isWithin dir = true := by
  obtain ⟨ds, front, n, hns, hdn, hpn⟩ := exists_strictlyWithin hd h
  have hds := (List.forall_mem_append.mp hns).1
  rw [← List.append_assoc] at hns hpn
  have hfront := (List.forall_mem_append.mp hns).1
  rw [hpn, parentDir_ofNames hns, isWithin_iff hfront hds (normalize_ofNames hfront) hdn]
  exact ⟨front, rfl⟩

/-- The directory of what lies strictly inside an absolute directory is absolute. -/
theorem StrictlyWithin.isAbsolute_parentDir {dir p : Path} (hd : dir.isAbsolute = true)
    (h : p.StrictlyWithin dir) : p.normalize.parentDir.isAbsolute = true :=
  isAbsolute_of_isWithin hd (h.isWithin_parentDir hd)

/-- The way to a place inside a directory consists of names alone. -/
theorem relative_below {dir p : Path} {ds down : List Text} (hns : ∀ n ∈ ds ++ down, ValidName n)
    (hd : dir.normalize = ofNames ds) (hp : p.normalize = ofNames (ds ++ down)) :
    dir.relative p = ofComponents (names down) := by
  have hds : ∀ n ∈ ds ++ [], ValidName n := by
    intro n hn
    exact hns n (List.mem_append_left _ (by simpa using hn))
  exact relative_of_parted hds hns (by rw [List.append_nil]; exact hd) hp (.below down)

/-- A way of names alone is found again from wherever it was followed. -/
theorem relative_resolve_names (base : Path) {ns : List Text} (h : ∀ n ∈ ns, ValidName n) :
    base.relative (base.resolve (ofComponents (names ns))) = ofComponents (names ns) := by
  have hstep := step_of_mem_names h
  have hway := (components_ofComponents hstep).2
  have habs : (base.resolve (ofComponents (names ns))).normalize.isAbsolute
      = base.normalize.isAbsolute := by
    rw [normalize_resolve, resolve_of_relative hway, isAbsolute_normalize, isAbsolute_join hway,
      isAbsolute_normalize]
  have hcomponents : (base.resolve (ofComponents (names ns))).normalize.components
      = base.normalize.components ++ names ns := by
    rw [components_normalize, components_normalize, stack_resolve_of_relative hway,
      steps_ofComponents hstep, foldl_names]
    simp
  have hdrop : dropCommon (base.resolve (ofComponents (names ns))).normalize.components
      base.normalize.components = (names ns, names []) := by
    rw [hcomponents]
    exact dropCommon_append _ _
  rw [relative, difference?_of_names habs hdrop]
  rfl

/-- The way between two places does not depend on how the base is spelled. -/
theorem relative_congr {base base' : Path} (h : base.normalize = base'.normalize) (target : Path) :
    base.relative target = base'.relative target := by
  rw [relative, relative, h]

/-- **What lies strictly inside a directory is moved strictly inside another**, and the way to it stays
    the same. -/
theorem relative_resolve_below {dir other p : Path} (hd : dir.isAbsolute = true)
    (ho : other.isAbsolute = true) (h : p.StrictlyWithin dir) :
    (other.resolve (dir.relative p)).StrictlyWithin other ∧
      other.relative (other.resolve (dir.relative p)) = dir.relative p := by
  obtain ⟨ds, front, n, hns, hdn, hpn⟩ := exists_strictlyWithin hd h
  obtain ⟨es, hes, hon⟩ := exists_ofNames ho
  obtain ⟨hds, hbelow⟩ := List.forall_mem_append.mp hns
  have hmoved : ∀ m ∈ es ++ (front ++ [n]), ValidName m := List.forall_mem_append.mpr ⟨hes, hbelow⟩
  have hplace := resolve_relative_below hds hes hbelow hdn hon hpn
  have hnormal := normalize_ofNames hmoved
  rw [hplace, relative_below hmoved hon hnormal, relative_below hns hdn hpn]
  refine ⟨⟨(isWithin_iff hmoved hes hnormal hon).mpr ⟨_, rfl⟩, ?_⟩, rfl⟩
  rw [hnormal, hon]
  intro hsame
  have hnil := (ofNames_inj hmoved hes).mp hsame
  simp at hnil

end Path

end Typings

namespace Typings.Path

/-! ## Steps up at the start -/

/-- How many steps up the folded path begins with. -/
def climbs (p : Path) : Nat := p.stack.count .parent

/-- Folding does not change how far a path climbs. -/
theorem climbs_normalize (p : Path) : p.normalize.climbs = p.climbs := by
  rw [climbs, climbs, stack_normalize]

/-- A folded relative path is its steps up, and then names. -/
theorem stack_reverse_eq_climb {p : Path} (h : p.isAbsolute = false) :
    ∃ ns, (∀ n ∈ ns, ValidName n) ∧ p.stack.reverse = climb p.climbs ns := by
  obtain ⟨k, ns, hns, hst⟩ := stack_reverse_of_relative h
  have hclimbs : p.climbs = k := by rw [climbs, ← List.count_reverse, hst, count_parent_climb]
  exact ⟨ns, hns, by rw [hclimbs, hst]⟩

/-- A step takes back a name or nothing, never a step up. -/
theorem count_parent_le_foldComponent {c : Component} (hc : c.Step) (st : List Component) :
    st.count .parent ≤ (foldComponent st c).count .parent := by
  cases c with
  | root => exact hc.elim
  | current => exact hc.elim
  | name n => exact List.count_le_count_cons
  | parent =>
      cases st with
      | nil => exact Nat.zero_le _
      | cons d st =>
          cases d with
          | root => exact Nat.le_refl _
          | name n =>
              rw [List.count_cons_of_ne (by simp)]
              exact Nat.le_refl _
          | current => exact List.count_le_count_cons
          | parent => exact List.count_le_count_cons

/-- Steps up on a stack are never taken off it. -/
theorem count_parent_le_foldl {cs : List Component} (h : ∀ c ∈ cs, c.Step) (st : List Component) :
    st.count .parent ≤ (cs.foldl foldComponent st).count .parent := by
  induction cs generalizing st with
  | nil => exact Nat.le_refl _
  | cons c cs ih =>
      obtain ⟨hc, hcs⟩ := List.forall_mem_cons.mp h
      exact (count_parent_le_foldComponent hc st).trans (ih hcs _)

/-- What is reached from a place is at least as far up. -/
theorem climbs_le_resolve {p : Path} (hp : p.isAbsolute = false) (base : Path) :
    base.climbs ≤ (base.resolve p).climbs := by
  rw [climbs, climbs, stack_resolve_of_relative hp]
  exact count_parent_le_foldl (fun _ => step_of_mem_steps) _

/-! ## The way leads there -/

/-- What is left of names after a common beginning are names. -/
theorem exists_names_of_dropCommon (s : List Component) (ns : List Text) :
    ∃ down up, dropCommon s (names ns) = (down, names up) := by
  obtain ⟨front, -, hnames⟩ := dropCommon_spec s (names ns)
  obtain ⟨-, up, -, -, hup⟩ := List.map_eq_append_iff.mp hnames
  exact ⟨(dropCommon s (names ns)).1, up, Prod.ext rfl hup.symm⟩

/-- The way between relative places leads there if the target is as far up as the base. -/
theorem resolve_relative_of_climbs {base target : Path} (hb : base.isAbsolute = false)
    (ht : target.isAbsolute = false) (h : base.climbs ≤ target.climbs) :
    base.resolve (base.relative target) = target.normalize := by
  obtain ⟨bs, -, hbase⟩ := stack_reverse_eq_climb hb
  obtain ⟨ts, hts, htarget⟩ := stack_reverse_eq_climb ht
  -- The steps up of the base are common to both, and behind them the base has names only.
  have hsplit : climb target.climbs ts
      = List.replicate base.climbs .parent ++ climb (target.climbs - base.climbs) ts := by
    rw [climb, climb, ← List.append_assoc, List.replicate_append_replicate, Nat.add_sub_cancel' h]
  obtain ⟨down, up, hrest⟩ := exists_names_of_dropCommon (climb (target.climbs - base.climbs) ts) bs
  have hdown : ∀ c ∈ down, c.Step := by
    obtain ⟨front, hfront, -⟩ := dropCommon_spec (climb (target.climbs - base.climbs) ts) (names bs)
    rw [hrest] at hfront
    exact fun c hc => step_of_mem_climb hts c (hfront ▸ List.mem_append_right _ hc)
  have hdrop : dropCommon target.normalize.components base.normalize.components
      = (down, names up) := by
    rw [components_normalize, components_normalize, htarget, hbase, hsplit]
    exact (dropCommon_front _ _ _).trans hrest
  exact resolve_relative_of_dropCommon (ht.trans hb.symm) hdown hdrop

/-- The way to a relative place is relative. -/
theorem isAbsolute_relative_of_relative {target : Path} (ht : target.isAbsolute = false)
    (base : Path) : (base.relative target).isAbsolute = false := by
  obtain ⟨ts, hts, hst⟩ := stack_reverse_eq_climb ht
  have hstep : ∀ c ∈ target.normalize.components, c.Step := by
    rw [components_normalize, hst]
    exact step_of_mem_climb hts
  unfold relative
  cases hway : difference? target.normalize base.normalize with
  | none => simpa using ht
  | some p =>
      rcases difference?_components hway with rfl | ⟨cs, rfl, hcs⟩
      · simpa using ht
      · refine (components_ofComponents fun c hc => ?_).2
        rcases hcs c hc with hmem | rfl
        · exact hstep c hmem
        · trivial

/-- **When the way leads there.**  To an absolute place it always does; to a relative one it does from a
    relative base that is no farther up. -/
theorem resolve_relative_iff (base target : Path) :
    base.resolve (base.relative target) = target.normalize ↔
      target.isAbsolute = true ∨ base.isAbsolute = false ∧ base.climbs ≤ target.climbs := by
  by_cases ht : target.isAbsolute = true
  · exact iff_of_true (resolve_relative ht base) (.inl ht)
  · have ht' : target.isAbsolute = false := by simpa using ht
    constructor
    · intro h
      refine .inr ⟨?_, ?_⟩
      · by_contra hb
        have habs := isAbsolute_resolve (by simpa using hb) (base.relative target)
        rw [h, isAbsolute_normalize, ht'] at habs
        exact absurd habs (by decide)
      · have hle := climbs_le_resolve (isAbsolute_relative_of_relative ht' base) base
        rwa [h, climbs_normalize] at hle
    · rintro (habs | ⟨hb, hle⟩)
      · exact absurd habs ht
      · exact resolve_relative_of_climbs hb ht' hle

/-- **Going the way and resolving it are inverse.**  The way to an absolute place, or between relative
    places whose base does not begin with a step up, leads to the target; and it depends on the folded
    places alone. -/
theorem relative_inverse (base target : Path) :
    (target.isAbsolute = true ∨
        base.isAbsolute = false ∧ target.isAbsolute = false ∧ .parent ∉ base.normalize.components →
      base.resolve (base.relative target) = target.normalize) ∧
    ∀ base' target' : Path, base'.normalize = base.normalize → target'.normalize = target.normalize →
      base'.relative target' = base.relative target := by
  constructor
  · rintro (ht | ⟨hb, -, hnone⟩)
    · exact (resolve_relative_iff base target).mpr (.inl ht)
    · have hzero : base.climbs = 0 := by
        rw [components_normalize, List.mem_reverse] at hnone
        exact List.count_eq_zero.mpr hnone
      exact (resolve_relative_iff base target).mpr (.inr ⟨hb, hzero ▸ Nat.zero_le _⟩)
  · intro base' target' hbase htarget
    rw [relative, relative, hbase, htarget]

/-- Two ways that climb: out of a relative base, and above the root. -/
theorem relative_inverse_climbing :
    Path.resolve "src/./ui//" (Path.relative "src/./ui//" "../lib/x.d.ts") = "../lib/x.d.ts" ∧
      Path.resolve "/../a" (Path.relative "/../a" "/b/../../c") = "/c" := by
  have hrelative := (relative_inverse "src/./ui//" "../lib/x.d.ts").1
    (.inr ⟨by decide, by decide, by decide⟩)
  have habsolute := (relative_inverse "/../a" "/b/../../c").1 (.inl (by decide))
  exact ⟨hrelative.trans (by decide), habsolute.trans (by decide)⟩

/-! ## Ways that do not climb -/

/-- Steps without a step up are names. -/
theorem exists_names_of_steps {cs : List Component} (h : ∀ c ∈ cs, c.Step) (hnone : .parent ∉ cs) :
    ∃ ns, cs = names ns := by
  induction cs with
  | nil => exact ⟨[], rfl⟩
  | cons c cs ih =>
      obtain ⟨hc, hcs⟩ := List.forall_mem_cons.mp h
      rw [List.mem_cons, not_or] at hnone
      obtain ⟨hne, hnone⟩ := hnone
      obtain ⟨ns, rfl⟩ := ih hcs hnone
      cases c with
      | root => exact hc.elim
      | current => exact hc.elim
      | parent => exact absurd rfl hne
      | name n => exact ⟨n :: ns, rfl⟩

/-- The way to what lies in a directory has no step up. -/
theorem parent_not_mem_relative {p dir : Path} (hd : dir.isAbsolute = true)
    (h : p.isWithin dir = true) : .parent ∉ (dir.relative p).components := by
  obtain ⟨ns, hns, hpn⟩ := exists_ofNames (isAbsolute_of_isWithin hd h)
  obtain ⟨ds, hds, hdn⟩ := exists_ofNames hd
  obtain ⟨down, rfl⟩ := (isWithin_iff hns hds hpn hdn).mp h
  have hdown := (List.forall_mem_append.mp hns).2
  rw [relative_below hns hdn hpn, (components_ofComponents (step_of_mem_names hdown)).1]
  exact parent_not_mem_names down

/-- What is reached from a directory without a step up lies in it. -/
theorem isWithin_of_resolve {p dir way : Path} (hway : way.isAbsolute = false)
    (hnone : .parent ∉ way.components) (h : dir.resolve way = p.normalize) :
    p.isWithin dir = true := by
  have hsteps : .parent ∉ way.steps := by
    rcases components_of_relative hway with hc | hc
    · exact hc ▸ hnone
    · exact fun hmem => hnone (hc ▸ List.mem_cons_of_mem _ hmem)
  obtain ⟨ns, hns⟩ := exists_names_of_steps (fun _ => step_of_mem_steps) hsteps
  have hstack : p.stack = (names ns).reverse ++ dir.stack := by
    rw [← stack_normalize, ← h, stack_resolve_of_relative hway, hns, foldl_names]
  rw [isWithin, startsWith_iff_components, components_normalize, components_normalize, hstack,
    List.reverse_append, List.reverse_reverse]
  exact List.prefix_append _ _

/-- **Containment is a fact about the way.**  A place lies in a directory if and only if the way to it has
    no step up, and if and only if some way without a step up leads there. -/
theorem isWithin_iff_descends {p dir : Path} (hp : p.isAbsolute = true) (hd : dir.isAbsolute = true) :
    (p.isWithin dir = true ↔ .parent ∉ (dir.relative p).components) ∧
      (p.isWithin dir = true ↔ ∃ way : Path, way.isAbsolute = false ∧ .parent ∉ way.components ∧
        dir.resolve way = p.normalize) := by
  have hrelative := isAbsolute_relative hd hp
  have hleads := resolve_relative hp dir
  have hwithin : (∃ way : Path, way.isAbsolute = false ∧ .parent ∉ way.components ∧
      dir.resolve way = p.normalize) → p.isWithin dir = true := by
    rintro ⟨way, hway, hnone, hplace⟩
    exact isWithin_of_resolve hway hnone hplace
  refine ⟨⟨parent_not_mem_relative hd, fun hnone => ?_⟩, ⟨fun h => ?_, hwithin⟩⟩
  · exact hwithin ⟨_, hrelative, hnone, hleads⟩
  · exact ⟨_, hrelative, parent_not_mem_relative hd h, hleads⟩

/-- A directory with a longer name beside the directory is no place inside it, and neither is a place
    that is reached through it. -/
theorem isWithin_iff_descends_lookAlikes :
    (Path.isWithin "/p//x/../dist/./a.d.ts" "/p/dist/" = true ∧
        ∃ way : Path, way.isAbsolute = false ∧ .parent ∉ way.components ∧
          Path.resolve "/p/dist/" way = Path.normalize "/p//x/../dist/./a.d.ts") ∧
      .parent ∈ (Path.relative "/p/dist" "/p/dist-other/a.d.ts").components ∧
      ¬ ∃ way : Path, way.isAbsolute = false ∧ .parent ∉ way.components ∧
          Path.resolve "/p/dist" way = Path.normalize "/p/dist/../src/a.d.ts" := by
  have hin : Path.isWithin "/p//x/../dist/./a.d.ts" "/p/dist/" = true := by decide
  have hinside := @isWithin_iff_descends "/p//x/../dist/./a.d.ts" "/p/dist/" (by decide) (by decide)
  have hbeside := @isWithin_iff_descends "/p/dist-other/a.d.ts" "/p/dist" (by decide) (by decide)
  have hthrough := @isWithin_iff_descends "/p/dist/../src/a.d.ts" "/p/dist" (by decide) (by decide)
  refine ⟨⟨hin, hinside.2.mp hin⟩, ?_, fun h => ?_⟩
  · by_contra hnone
    exact absurd (hbeside.1.mpr hnone) (by decide)
  · exact absurd (hthrough.2.mpr h) (by decide)

end Typings.Path
