import Typings.Proofs.Path.Normal

/-!
# `Relative` — the way from one place to another

The way to an absolute place climbs from what only the base has and descends to what only the target
has.  Followed from the base, it leads to the target (`resolve_relative`), whatever the base is.

* `dropCommon_spec`: what two lists have in common is cut off both.
* `relative_of_isAbsolute`, `isAbsolute_relative`: the way between absolute places, as steps up and names.
* `resolve_relative_of_dropCommon`: a way that takes back names only leads there.
* `resolve_relative`: the way leads there.
* `mem_text_relative`: a way is spelled with the characters of its target.
-/

namespace Typings

namespace Path

/-! ## Common beginnings -/

theorem dropCommon_spec (s t : List Component) :
    ∃ front, s = front ++ (dropCommon s t).1 ∧ t = front ++ (dropCommon s t).2 := by
  fun_induction dropCommon s t with
  | case1 a s b t heq ih =>
      obtain ⟨front, hs, ht⟩ := ih
      refine ⟨b :: front, ?_, ?_⟩
      · rw [List.cons_append, ← hs, beq_iff_eq.mp heq]
      · rw [List.cons_append, ← ht]
  | case2 a s b t hne => exact ⟨[], rfl, rfl⟩
  | case3 s t h => exact ⟨[], rfl, rfl⟩

theorem dropCommon_names (ns ms : List Text) :
    ∃ common down up, ns = common ++ down ∧ ms = common ++ up ∧
      dropCommon (.root :: names ns) (.root :: names ms) = (names down, names up) := by
  have hroot : dropCommon (.root :: names ns) (.root :: names ms) = dropCommon (names ns) (names ms) := by
    rw [dropCommon, if_pos (by simp)]
  rw [hroot]
  clear hroot
  induction ns generalizing ms with
  | nil => exact ⟨[], [], ms, rfl, rfl, by cases ms <;> rfl⟩
  | cons n ns ih =>
      cases ms with
      | nil => exact ⟨[], n :: ns, [], rfl, rfl, rfl⟩
      | cons m ms =>
          by_cases h : n = m
          · obtain ⟨common, down, up, hn, hm, hd⟩ := ih ms
            refine ⟨m :: common, down, up, by rw [h, hn]; rfl, by rw [hm]; rfl, ?_⟩
            rw [names, names, List.map_cons, List.map_cons, h, dropCommon, if_pos (by simp)]
            exact hd
          · refine ⟨[], n :: ns, m :: ms, rfl, rfl, ?_⟩
            rw [names, names, List.map_cons, List.map_cons, dropCommon, if_neg (by simpa using h)]

/-! ## The way to an absolute place -/

/-- The way goes up as many names as the base has left, and down what the target has left. -/
theorem difference?_of_names {target base : Path} {down : List Component} {up : List Text}
    (habs : target.isAbsolute = base.isAbsolute)
    (h : dropCommon target.components base.components = (down, names up)) :
    difference? target base = some (ofComponents (List.replicate up.length .parent ++ down)) := by
  have hup : (names up).map (fun _ => Component.parent) = List.replicate up.length .parent := by
    simp [names, Function.comp_def, List.map_const']
  unfold difference?
  rw [habs, h]
  cases up with
  | nil => cases base.isAbsolute <;> rfl
  | cons u up =>
      cases down with
      | nil => rw [← hup, List.append_nil]; cases base.isAbsolute <;> rfl
      | cons d down => rw [← hup]; cases base.isAbsolute <;> rfl

/-- Only steps up and names are left where two absolute places part. -/
theorem difference?_of_dropCommon {target base : Path} {down up : List Text}
    (ht : target.isAbsolute = true) (hb : base.isAbsolute = true)
    (h : dropCommon target.components base.components = (names down, names up)) :
    difference? target base = some (ofComponents (climb up.length down)) :=
  difference?_of_names (ht.trans hb.symm) h

/-- The way between absolute places: up from what only the base has, down to what only the target
    has. -/
theorem relative_of_isAbsolute {base target : Path} (hb : base.isAbsolute = true)
    (ht : target.isAbsolute = true) :
    ∃ common down up, (∀ n ∈ down, ValidName n) ∧
      target.stack.reverse = .root :: names (common ++ down) ∧
      base.stack.reverse = .root :: names (common ++ up) ∧
      base.relative target = ofComponents (climb up.length down) := by
  obtain ⟨ns, hns, hsn⟩ := stack_reverse_of_isAbsolute ht
  obtain ⟨ms, -, hsm⟩ := stack_reverse_of_isAbsolute hb
  obtain ⟨common, down, up, rfl, rfl, hd⟩ := dropCommon_names ns ms
  refine ⟨common, down, up, fun n hn => hns n (List.mem_append_right _ hn), hsn, hsm, ?_⟩
  have hdrop : dropCommon target.normalize.components base.normalize.components
      = (names down, names up) := by
    rw [components_normalize, components_normalize, hsn, hsm, hd]
  have h := difference?_of_dropCommon (by simpa using ht) (by simpa using hb) hdrop
  rw [relative, h, Option.getD_some]

/-- The way between absolute places is relative. -/
theorem isAbsolute_relative {base target : Path} (hb : base.isAbsolute = true)
    (ht : target.isAbsolute = true) : (base.relative target).isAbsolute = false := by
  obtain ⟨common, down, up, hdown, -, -, hrel⟩ := relative_of_isAbsolute hb ht
  rw [hrel]
  exact (components_ofComponents (step_of_mem_climb hdown)).2

/-- Steps up take back the names on top of the stack. -/
theorem foldl_parents (up : List Text) (st : List Component) :
    (List.replicate up.length Component.parent).foldl foldComponent ((names up).reverse ++ st) = st := by
  induction up generalizing st with
  | nil => rfl
  | cons u up ih =>
      have h := ih (.name u :: st)
      rw [List.length_cons, List.replicate_succ', List.foldl_append, names, List.map_cons,
        List.reverse_cons, List.append_assoc, List.singleton_append, ← names, h]
      rfl

/-- Names go on top of the stack. -/
theorem foldl_names (down : List Text) (st : List Component) :
    (names down).foldl foldComponent st = (names down).reverse ++ st := by
  induction down generalizing st with
  | nil => rfl
  | cons d down ih =>
      rw [names, List.map_cons, List.foldl_cons, List.reverse_cons, List.append_assoc,
        List.singleton_append]
      exact ih (.name d :: st)

theorem steps_ofComponents {cs : List Component} (h : ∀ c ∈ cs, c.Step) :
    (ofComponents cs).steps = cs := by
  obtain ⟨hc, ha⟩ := components_ofComponents h
  rcases components_of_relative ha with hs | hs
  · rw [← hs, hc]
  · have hcur : Component.current ∈ cs := by
      rw [← hc, hs]
      exact List.mem_cons_self
    exact (h _ hcur).elim

/-- A way that takes back names only leads to the target. -/
theorem resolve_relative_of_dropCommon {base target : Path} {down : List Component} {up : List Text}
    (habs : target.isAbsolute = base.isAbsolute) (hdown : ∀ c ∈ down, c.Step)
    (h : dropCommon target.normalize.components base.normalize.components = (down, names up)) :
    base.resolve (base.relative target) = target.normalize := by
  obtain ⟨front, htarget, hbase⟩ :=
    dropCommon_spec target.normalize.components base.normalize.components
  rw [h] at htarget hbase
  have hway : base.relative target = ofComponents (List.replicate up.length .parent ++ down) := by
    rw [relative, difference?_of_names (by simpa using habs) h, Option.getD_some]
  have hstep : ∀ c ∈ List.replicate up.length .parent ++ down, c.Step := by
    refine List.forall_mem_append.mpr ⟨fun c hc => ?_, hdown⟩
    rw [List.eq_of_mem_replicate hc]
    trivial
  -- The names of the base lie on top of the common beginning.
  have hstack : base.stack = (names up).reverse ++ front.foldl foldComponent [] := by
    rw [← stack_normalize, stack, hbase, List.foldl_append, foldl_names]
  refine eq_of_stack_eq (normalize_resolve _ _) (normalize_normalize _) ?_
  calc (base.resolve (base.relative target)).stack
      = (List.replicate up.length Component.parent ++ down).foldl foldComponent base.stack := by
        rw [hway, stack_resolve_of_relative (components_ofComponents hstep).2,
          steps_ofComponents hstep]
    _ = down.foldl foldComponent (front.foldl foldComponent []) := by
        rw [List.foldl_append, hstack, foldl_parents]
    _ = target.normalize.stack := by rw [← List.foldl_append, ← htarget, stack]

/-- **The way leads there.** The way from a base to an absolute place, followed from the base, is the
    place. -/
theorem resolve_relative {target : Path} (ht : target.isAbsolute = true) (base : Path) :
    base.resolve (base.relative target) = target.normalize := by
  by_cases hb : base.isAbsolute = true
  · obtain ⟨ns, hns, htarget⟩ := stack_reverse_of_isAbsolute ht
    obtain ⟨ms, -, hbase⟩ := stack_reverse_of_isAbsolute hb
    obtain ⟨common, down, up, rfl, rfl, hdrop⟩ := dropCommon_names ns ms
    have hrest : dropCommon target.normalize.components base.normalize.components
        = (names down, names up) := by
      rw [components_normalize, components_normalize, htarget, hbase, hdrop]
    have hdown := step_of_mem_names fun n hn => hns n (List.mem_append_right _ hn)
    exact resolve_relative_of_dropCommon (ht.trans hb.symm) hdown hrest
  · have hb' : base.isAbsolute = false := by simpa using hb
    have hrel : base.relative target = target.normalize := by
      rw [relative, difference?, isAbsolute_normalize, isAbsolute_normalize, ht, hb']
      rfl
    rw [hrel, resolve_of_isAbsolute (by simpa using ht), normalize_normalize]

/-! ## The characters of a way -/

/-- The steps of a way go up or are components of its target. -/
theorem difference?_components {target base p : Path} (h : difference? target base = some p) :
    p = target ∨ ∃ cs, p = ofComponents cs ∧ ∀ c ∈ cs, c ∈ target.components ∨ c = .parent := by
  obtain ⟨front, hfront, -⟩ := dropCommon_spec target.components base.components
  have hdown : ∀ c ∈ (dropCommon target.components base.components).1, c ∈ target.components := by
    intro c hc
    rw [hfront]
    exact List.mem_append_right _ hc
  have hway (up : List Component) (cs : List Component)
      (hcs : cs = up.map (fun _ => .parent) ++ (dropCommon target.components base.components).1) :
      ∀ c ∈ cs, c ∈ target.components ∨ c = .parent := by
    intro c hc
    rw [hcs] at hc
    rcases List.mem_append.mp hc with hc | hc
    · exact .inr (by obtain ⟨_, _, rfl⟩ := List.mem_map.mp hc; rfl)
    · exact .inl (hdown c hc)
  unfold difference? at h
  split at h
  · exact .inl (Option.some.inj h).symm
  · exact absurd h (by simp)
  · split at h
    · rename_i down heq
      exact .inr ⟨down, (Option.some.inj h).symm, hway [] down (by rw [heq]; rfl)⟩
    · rename_i up _ heq
      exact .inr ⟨_, (Option.some.inj h).symm, hway up _ (by rw [heq]; simp)⟩
    · exact absurd h (by simp)
    · rename_i down up _ _ _ heq
      exact .inr ⟨_, (Option.some.inj h).symm, hway up _ (by rw [heq])⟩

/-- A way is spelled with the characters of its target, slashes and dots. -/
theorem mem_text_relative {base target : Path} {d : Char} (h : d ∈ (base.relative target).text) :
    d ∈ target.text ∨ d = '/' ∨ d = '.' := by
  unfold relative at h
  cases hd : difference? target.normalize base.normalize with
  | none =>
      rw [hd] at h
      exact mem_text_normalize h
  | some p =>
      rw [hd] at h
      rcases difference?_components hd with rfl | ⟨cs, rfl, hcs⟩
      · exact mem_text_normalize h
      · rcases mem_text_ofComponents h with h | ⟨c, hc, hdc⟩
        · exact .inr (.inl h)
        · rcases hcs c hc with hc | rfl
          · rw [components_normalize] at hc
            exact mem_text_of_mem_stack (List.mem_reverse.mp hc) hdc
          · exact .inr (.inr (by simpa [Component.text] using hdc))

end Path

end Typings
