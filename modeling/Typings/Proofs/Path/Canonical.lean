import Typings.Proofs.Path.Below

/-!
# `Canonical` — folded paths as a normal form

Folding is a normal form that joining respects: a path may be folded before another one is joined to it, and
directories may be resolved one by one or all at once (`normalize_canonical`).  Both say that the steps of the
second path are folded onto the stack of the first.

A path need not be taken apart for that.  It is folded in one pass that keeps nothing but the path so far and the
number of names that can be taken back from its end (`normalize_eq_foldl`): a step up takes a name back while there
is one, is dropped at the root, and is kept in front of a relative path.

* `dot_not_mem_normalize`, `parents_in_front`: what a folded path has no more, and where its steps up are.
* `normalize_join`, `resolve_resolve`: joining and resolving.
* `Folding`, `Folding.Spells`: the pass, and the stack that it stands for; `Spells.push`, one component.
-/

namespace Typings.Path

/-! ## The form of a folded path -/

/-- No step is spelled `.`. -/
theorem dot_not_mem_texts {cs : List Component} (h : ∀ c ∈ cs, c.Step) :
    ("." : Text) ∉ List.splitOn '/' (List.intercalate ['/'] (cs.map Component.text)) := by
  by_cases hcs : cs = []
  · subst hcs
    decide
  · rw [splitOn_intercalate_text h hcs]
    intro hdot
    obtain ⟨c, hc, htext⟩ := List.mem_map.mp hdot
    exact (h c hc).text_ne_dot htext

/-- Nothing between two slashes of a folded path is a `.`. -/
theorem dot_not_mem_normalize (p : Path) : ("." : Text) ∉ List.splitOn '/' p.normalize.text := by
  rw [normalize_eq]
  obtain ⟨ns, hns, hst | ⟨k, hst⟩⟩ := (normalStack_stack p).reverse_eq
  · have hsteps := step_of_mem_names hns
    rw [hst, text_ofComponents_root hsteps, Text.splitOn_cons_sep]
    exact List.not_mem_cons_of_ne_of_not_mem (by decide) (dot_not_mem_texts hsteps)
  · have hsteps := step_of_mem_climb (k := k) hns
    rw [hst, (text_ofComponents (text_ne_nil_of_step hsteps)).1]
    exact dot_not_mem_texts hsteps

/-- A folded path has no `.` among its components. -/
theorem current_not_mem_normalize (p : Path) : .current ∉ p.normalize.components := by
  rw [components_normalize]
  intro h
  rcases mem_stack (List.mem_reverse.mp h) with h | h | h
  · exact step_of_mem_steps h
  · exact nomatch h
  · exact nomatch h

/-- A step up is left in a relative path only, and nothing but other steps up is in front of it. -/
theorem parents_in_front {p : Path} {front back : List Component}
    (h : p.normalize.components = front ++ .parent :: back) :
    p.isAbsolute = false ∧ ∀ c ∈ front, c = .parent := by
  rw [components_normalize] at h
  have hno (ns : List Text) {rest : List Component} : names ns ≠ rest ++ .parent :: back := by
    intro he
    exact parent_not_mem_names ns (he ▸ List.mem_append_right _ List.mem_cons_self)
  have hrel : p.isAbsolute = false := by
    by_contra habs
    obtain ⟨ns, -, hst⟩ := stack_reverse_of_isAbsolute (by simpa using habs)
    rw [hst] at h
    cases front with
    | nil => exact nomatch (List.cons.inj h).1
    | cons c front => exact hno ns (List.cons.inj h).2
  refine ⟨hrel, fun c hc => ?_⟩
  obtain ⟨k, ns, -, hst⟩ := stack_reverse_of_relative hrel
  rw [hst, climb] at h
  -- The step up is one of those in front, for there is none among the names.
  rcases List.append_eq_append_iff.mp h with ⟨rest, -, hnames⟩ | ⟨rest, hparents, -⟩
  · exact absurd hnames (hno ns)
  · exact List.eq_of_mem_replicate (hparents ▸ List.mem_append_left _ hc)

/-! ## Joining and resolving -/

/-- A path may be folded before another one is joined to it. -/
theorem normalize_join (a b : Path) : (a.join b).normalize = (a.normalize.join b).normalize := by
  by_cases hb : b.isAbsolute = true
  · rw [join, join, if_pos hb, if_pos hb]
  · have hrel : b.isAbsolute = false := by simpa using hb
    rw [normalize_eq_iff, stack_join hrel, stack_join hrel, stack_normalize]

/-- Resolving in two steps is resolving the joined path. -/
theorem resolve_resolve (a b c : Path) : (a.resolve b).resolve c = a.resolve (b.join c) := by
  refine eq_of_stack_eq (normalize_resolve _ _) (normalize_resolve _ _) ?_
  by_cases hc : c.isAbsolute = true
  · have hjoin : b.join c = c := if_pos hc
    rw [hjoin, stack_resolve_of_isAbsolute hc, stack_resolve_of_isAbsolute hc]
  · have hrel : c.isAbsolute = false := by simpa using hc
    have hjoin : (b.join c).isAbsolute = b.isAbsolute := isAbsolute_join hrel
    rw [stack_resolve_of_relative hrel]
    by_cases hb : b.isAbsolute = true
    · rw [stack_resolve_of_isAbsolute hb, stack_resolve_of_isAbsolute (hjoin.trans hb), stack_join hrel]
    · have hb' : b.isAbsolute = false := by simpa using hb
      rw [stack_resolve_of_relative hb', stack_resolve_of_relative (hjoin.trans hb'), steps_join hrel,
        List.foldl_append]

/-- **Folding is a normal form.** A folded path has no `.` in it, and `..` only as a run in front of a relative
    path; it is absolute if the path is, and is folded for good.  A path may be folded before another one is joined
    to it, and what is resolved step by step is resolved at once. -/
theorem normalize_canonical :
    (∀ p : Path, ("." : Text) ∉ List.splitOn '/' p.normalize.text ∧
      .current ∉ p.normalize.components ∧
      (∀ front back, p.normalize.components = front ++ .parent :: back →
        p.isAbsolute = false ∧ ∀ c ∈ front, c = .parent) ∧
      p.normalize.isAbsolute = p.isAbsolute ∧
      p.normalize.normalize = p.normalize) ∧
    (∀ a b : Path, (a.join b).normalize = (a.normalize.join b).normalize) ∧
    ∀ a b c : Path, (a.resolve b).resolve c = a.resolve (b.join c) := by
  refine ⟨fun p => ?_, normalize_join, resolve_resolve⟩
  exact ⟨dot_not_mem_normalize p, current_not_mem_normalize p, fun _ _ => parents_in_front,
    isAbsolute_normalize p, normalize_normalize p⟩

theorem normalize_canonical_climbing :
    Path.components (Path.normalize "./a/../../.././b//c/.") = [.parent] ++ .parent :: [.name "b", .name "c"] ∧
      Path.isAbsolute "./a/../../.././b//c/." = false ∧ ∀ c ∈ [Component.parent], c = .parent := by
  have h : Path.components (Path.normalize "./a/../../.././b//c/.")
      = [.parent] ++ .parent :: [.name "b", .name "c"] := by decide
  exact ⟨h, (normalize_canonical.1 _).2.2.1 _ _ h⟩

/-! ## One pass -/

/-- A path that is folded on the way through its components: the path so far, and the number of names that can be
    taken back from its end. -/
structure Folding where
  path : Path
  depth : Nat

namespace Folding

variable {s : Folding} {st : List Component}

/-- One component onto the path so far. -/
def push (s : Folding) : Component → Folding
  | .root => { s with path := s.path.join ⟨Component.root.text⟩ }
  | .current => s
  | .parent =>
    if 0 < s.depth then ⟨s.path.parentDir, s.depth - 1⟩
    else if s.path.isAbsolute then s
    else { s with path := s.path.join ⟨Component.parent.text⟩ }
  | .name n => ⟨s.path.join ⟨n⟩, s.depth + 1⟩

/-- A step up takes off a name that is there. -/
theorem push_parent_of_pos (h : 0 < s.depth) : s.push .parent = ⟨s.path.parentDir, s.depth - 1⟩ := if_pos h

/-- At the root a step up leads nowhere. -/
theorem push_parent_of_isAbsolute (h : s.depth = 0) (habs : s.path.isAbsolute = true) :
    s.push .parent = s := by
  rw [push, if_neg (by omega), if_pos habs]

/-- In front of a relative path steps up are kept. -/
theorem push_parent_of_relative (h : s.depth = 0) (hrel : s.path.isAbsolute = false) :
    s.push .parent = { s with path := s.path.join ⟨Component.parent.text⟩ } := by
  rw [push, if_neg (by omega), if_neg (by simp [hrel])]

end Folding

/-- The number of names on top of a stack. -/
def nameRun : List Component → Nat
  | .name _ :: st => nameRun st + 1
  | _ => 0

/-- The path so far is that of a stack, and the number is that of the names on top of the stack. -/
structure Folding.Spells (s : Folding) (st : List Component) : Prop where
  path : s.path = ofComponents st.reverse
  depth : s.depth = nameRun st

/-- The directory of what a stack spells is what it spells without its topmost name. -/
theorem NormalStack.parentDir {n : Text} {st : List Component} (hn : ValidName n) (h : NormalStack st) :
    (ofComponents (.name n :: st).reverse).parentDir = ofComponents st.reverse := by
  have hlast {cs : List Component} (hcs : ∀ c ∈ cs, c.Step) : ∀ c ∈ cs ++ [.name n], c.Step :=
    List.forall_mem_append.mpr ⟨hcs, List.forall_mem_singleton.mpr hn⟩
  rw [List.reverse_cons]
  obtain ⟨ns, hns, hst | ⟨k, hst⟩⟩ := h.reverse_eq
  · rw [hst, List.cons_append]
    exact parentDir_ofComponents_root (hlast (step_of_mem_names hns))
  · rw [hst]
    exact parentDir_ofComponents (hlast (step_of_mem_climb hns))

/-- **One component** keeps the path and the number in step with the stack. -/
theorem Folding.Spells.push {s : Folding} {st : List Component} {c : Component} (hs : s.Spells st)
    (hst : NormalStack st) (hc : c.Step) : (s.push c).Spells (foldComponent st c) := by
  have hon (d : Component) : s.path.join ⟨d.text⟩ = ofComponents (d :: st).reverse := by
    rw [hs.path, List.reverse_cons, ofComponents_concat]
  cases c with
  | root => exact hc.elim
  | current => exact hc.elim
  | name n => exact ⟨hon (.name n), congrArg Nat.succ hs.depth⟩
  | parent =>
      -- What a step up does hangs on the top of the stack: the number there tells a name from all else, and
      -- the root from nothing or a step up is told by the path.
      cases hst with
      | nil =>
          have hrel : s.path.isAbsolute = false := by
            rw [hs.path]
            rfl
          rw [push_parent_of_relative hs.depth hrel]
          exact ⟨hon .parent, hs.depth⟩
      | root =>
          have habs : s.path.isAbsolute = true := by
            rw [hs.path]
            decide
          rw [push_parent_of_isAbsolute hs.depth habs]
          exact hs
      | @parent st hparents =>
          have hclimb : ∀ d ∈ (Component.parent :: st).reverse, d.Step := by
            intro d hd
            rcases List.mem_cons.mp (List.mem_reverse.mp hd) with rfl | hd
            · trivial
            · rw [hparents d hd]
              trivial
          have hrel : s.path.isAbsolute = false := by rw [hs.path, (components_ofComponents hclimb).2]
          rw [push_parent_of_relative hs.depth hrel]
          exact ⟨hon .parent, hs.depth⟩
      | @name n st hn hst =>
          have hdepth : s.depth = nameRun st + 1 := hs.depth
          rw [push_parent_of_pos (by omega)]
          exact ⟨hs.path ▸ hst.parentDir hn, by rw [hdepth]; rfl⟩

/-- The pass keeps the path and the number in step with the stack all along. -/
theorem Folding.Spells.foldl {s : Folding} {st cs : List Component} (hs : s.Spells st)
    (hst : NormalStack st) (hcs : ∀ c ∈ cs, c.Step) :
    (cs.foldl Folding.push s).Spells (cs.foldl foldComponent st) := by
  induction cs generalizing s st with
  | nil => exact hs
  | cons c cs ih =>
      obtain ⟨hc, hcs⟩ := List.forall_mem_cons.mp hcs
      exact ih (hs.push hst hc) (hst.foldComponent hc) hcs

/-- **A path is folded in one pass**, with no more than a number beside the path so far. -/
theorem normalize_eq_foldl (p : Path) :
    p.normalize = (p.components.foldl Folding.push ⟨empty, 0⟩).path := by
  have hpass {s : Folding} {st : List Component} (hs : s.Spells st) (hst : NormalStack st)
      (hstack : p.stack = p.steps.foldl foldComponent st) :
      p.normalize = (p.steps.foldl Folding.push s).path := by
    rw [(hs.foldl hst fun _ => step_of_mem_steps).path, ← hstack, normalize_eq]
  by_cases habs : p.isAbsolute = true
  · rw [components_of_isAbsolute habs]
    exact hpass (s := ⟨⟨['/']⟩, 0⟩) ⟨by decide, rfl⟩ .root (stack_of_isAbsolute habs)
  · have hrel : p.isAbsolute = false := by simpa using habs
    have hsteps := hpass (s := ⟨empty, 0⟩) ⟨rfl, rfl⟩ .nil (stack_of_relative hrel)
    -- A `.` in front changes nothing.
    rcases components_of_relative hrel with hc | hc
    · rw [hc]
      exact hsteps
    · rw [hc]
      exact hsteps

end Typings.Path
