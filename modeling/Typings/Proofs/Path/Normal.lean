import Typings.Path.Normal
import Typings.Proofs.Path.Components

/-!
# `Normal` — folded paths

Folding keeps a stack of components, innermost first: names on top of the root, or names on top of
steps up.  The stack is all that `normalize`, `resolve` and `relative` know about a path, and the path
that it spells has the same stack (`stack_normalize`), so a folded path is folded for good.

* `Path.stack`, `NormalStack`: the stack of a path, and the form that it has.
* `stack_join`, `stack_resolve_of_relative`: joining folds the steps of the second path onto the
  first stack.
* `stack_reverse_of_isAbsolute`, `stack_reverse_of_relative`: the form of a stack, outermost first.
-/

namespace Typings

namespace Path

/-! ## The stack of a path -/

/-- The folded components of a path, innermost first. -/
def stack (p : Path) : List Component := p.components.foldl foldComponent []

/-- A path is folded by spelling its stack from the outside in. -/
theorem normalize_eq (p : Path) : p.normalize = ofComponents p.stack.reverse := rfl

/-- The stack of an absolute path is built on the root. -/
theorem stack_of_isAbsolute {p : Path} (h : p.isAbsolute = true) :
    p.stack = p.steps.foldl foldComponent [.root] := by
  rw [stack, components_of_isAbsolute h]
  rfl

/-- The stack of a relative path is built on nothing; a leading `.` adds nothing to it. -/
theorem stack_of_relative {p : Path} (h : p.isAbsolute = false) :
    p.stack = p.steps.foldl foldComponent [] := by
  rw [stack]
  rcases components_of_relative h with hc | hc
  · rw [hc]
  · rw [hc]
    rfl

/-- Names on top of the root, or names on top of steps up. -/
inductive NormalStack : List Component → Prop where
  | nil : NormalStack []
  | root : NormalStack [.root]
  | parent {st : List Component} (h : ∀ c ∈ st, c = .parent) : NormalStack (.parent :: st)
  | name {n : Text} {st : List Component} (hn : ValidName n) (h : NormalStack st) :
      NormalStack (.name n :: st)

/-- One more component keeps the form of a stack. -/
theorem NormalStack.foldComponent {st : List Component} {c : Component} (h : NormalStack st)
    (hc : c.Step) : NormalStack (foldComponent st c) := by
  cases c with
  | root => exact hc.elim
  | current => exact hc.elim
  | name n => exact .name hc h
  | parent =>
      cases h with
      | nil => exact .parent (by simp)
      | root => exact .root
      | @parent st hst => exact .parent fun d hd => (List.mem_cons.mp hd).elim id (hst d)
      | name _ hst => exact hst

/-- A stack keeps its form however many components are folded onto it. -/
theorem NormalStack.foldl {cs st : List Component} (h : NormalStack st) (hcs : ∀ c ∈ cs, c.Step) :
    NormalStack (cs.foldl Path.foldComponent st) := by
  induction cs generalizing st with
  | nil => exact h
  | cons c cs ih =>
      exact ih (h.foldComponent (hcs c (by simp))) fun d hd => hcs d (by simp [hd])

/-- Every stack has the form, since it grows component by component. -/
theorem normalStack_stack (p : Path) : NormalStack p.stack := by
  by_cases h : p.isAbsolute = true
  · rw [stack_of_isAbsolute h]
    exact NormalStack.root.foldl fun _ => step_of_mem_steps
  · rw [stack_of_relative (by simpa using h)]
    exact NormalStack.nil.foldl fun _ => step_of_mem_steps

/-! ## The form of a stack -/

/-- The components that names stand for. -/
def names (ns : List Text) : List Component := ns.map .name

/-- Names are steps. -/
theorem step_of_mem_names {ns : List Text} (h : ∀ n ∈ ns, ValidName n) :
    ∀ c ∈ names ns, c.Step := by
  intro c hc
  obtain ⟨n, hn, rfl⟩ := List.mem_map.mp hc
  exact h n hn

/-- Steps up, and then names. -/
def climb (k : Nat) (ns : List Text) : List Component := List.replicate k .parent ++ names ns

/-- The components of a climb are steps. -/
theorem step_of_mem_climb {k : Nat} {ns : List Text} (h : ∀ n ∈ ns, ValidName n) :
    ∀ c ∈ climb k ns, c.Step := by
  intro c hc
  rcases List.mem_append.mp hc with hc | hc
  · rw [List.eq_of_mem_replicate hc]
    trivial
  · exact step_of_mem_names h c hc

/-- Among names there is no step up. -/
theorem parent_not_mem_names (ns : List Text) : .parent ∉ names ns := by
  intro hmem
  obtain ⟨n, -, hn⟩ := List.mem_map.mp hmem
  exact nomatch hn

/-- A climb has the steps up that it starts with, and no more. -/
theorem count_parent_climb (k : Nat) (ns : List Text) : (climb k ns).count .parent = k := by
  rw [climb, List.count_append, List.count_replicate_self,
    List.count_eq_zero.mpr (parent_not_mem_names ns), Nat.add_zero]

/-- From the outside in, a stack is a way of names below the root, or a climb. -/
theorem NormalStack.reverse_eq {st : List Component} (h : NormalStack st) :
    ∃ ns, (∀ n ∈ ns, ValidName n) ∧
      (st.reverse = .root :: names ns ∨ ∃ k, st.reverse = climb k ns) := by
  induction h with
  | nil => exact ⟨[], by simp, .inr ⟨0, rfl⟩⟩
  | root => exact ⟨[], by simp, .inl rfl⟩
  | @parent st hst =>
      refine ⟨[], by simp, .inr ⟨st.length + 1, ?_⟩⟩
      have hst : st = List.replicate st.length .parent := List.eq_replicate_iff.mpr ⟨rfl, hst⟩
      rw [List.reverse_cons, hst]
      simp [climb, names, List.replicate_succ']
  | @name n st hn _ ih =>
      obtain ⟨ns, hns, hst⟩ := ih
      refine ⟨ns ++ [n], ?_, ?_⟩
      · intro m hm
        rcases List.mem_append.mp hm with hm | hm
        · exact hns m hm
        · rw [List.mem_singleton.mp hm]
          exact hn
      · rcases hst with hst | ⟨k, hst⟩
        · exact .inl (by rw [List.reverse_cons, hst]; simp [names])
        · exact .inr ⟨k, by rw [List.reverse_cons, hst]; simp [climb, names]⟩

/-- Folding a folded list changes nothing. -/
theorem NormalStack.foldl_reverse {st : List Component} (h : NormalStack st) :
    st.reverse.foldl Path.foldComponent [] = st := by
  induction h with
  | nil => rfl
  | root => rfl
  | @parent st hst =>
      induction st with
      | nil => rfl
      | cons c st ih =>
          obtain rfl : c = .parent := hst c (by simp)
          rw [List.reverse_cons, List.foldl_append, ih fun d hd => hst d (by simp [hd])]
          rfl
  | @name n st hn _ ih =>
      rw [List.reverse_cons, List.foldl_append, ih]
      rfl

/-- What a stack spells has just its components. -/
theorem NormalStack.components_eq {st : List Component} (h : NormalStack st) :
    (ofComponents st.reverse).components = st.reverse := by
  obtain ⟨ns, hns, hst | ⟨k, hst⟩⟩ := h.reverse_eq
  · rw [hst]
    exact (components_ofComponents_root (step_of_mem_names hns)).1
  · rw [hst]
    exact (components_ofComponents (step_of_mem_climb hns)).1

/-- The path that a stack spells has this stack again, so spelling loses nothing. -/
theorem NormalStack.stack_eq {st : List Component} (h : NormalStack st) :
    (ofComponents st.reverse).stack = st := by
  rw [stack, h.components_eq, h.foldl_reverse]

/-! ## Folded paths -/

/-- A folded path has the components of the stack. -/
theorem components_normalize (p : Path) : p.normalize.components = p.stack.reverse :=
  (normalStack_stack p).components_eq

/-- Folding does not change the stack. -/
@[simp] theorem stack_normalize (p : Path) : p.normalize.stack = p.stack :=
  (normalStack_stack p).stack_eq

/-- Two paths fold to the same one just if they have the same stack. -/
theorem normalize_eq_iff {p q : Path} : p.normalize = q.normalize ↔ p.stack = q.stack := by
  constructor
  · intro h
    rw [← stack_normalize p, h, stack_normalize]
  · intro h
    rw [normalize_eq, normalize_eq, h]

/-- A path that was folded is folded already. -/
@[simp] theorem normalize_normalize (p : Path) : p.normalize.normalize = p.normalize :=
  normalize_eq_iff.mpr (stack_normalize p)

/-- The root is on a stack only if it was there before any steps. -/
theorem root_mem_foldl {cs st : List Component} (hcs : ∀ c ∈ cs, c.Step) :
    .root ∈ cs.foldl foldComponent st ↔ .root ∈ st := by
  induction cs generalizing st with
  | nil => rfl
  | cons c cs ih =>
      rw [List.foldl_cons, ih fun d hd => hcs d (by simp [hd])]
      cases c with
      | root => exact (hcs .root (by simp)).elim
      | current => exact (hcs .current (by simp)).elim
      | name n => simp [foldComponent]
      | parent =>
          cases st with
          | nil => simp [foldComponent]
          | cons d st => cases d <;> simp [foldComponent]

/-- The root is on the stack of the absolute paths. -/
theorem root_mem_stack {p : Path} : .root ∈ p.stack ↔ p.isAbsolute = true := by
  by_cases h : p.isAbsolute = true
  · rw [stack_of_isAbsolute h, root_mem_foldl fun _ => step_of_mem_steps]
    simp [h]
  · have h' : p.isAbsolute = false := by simpa using h
    rw [stack_of_relative h', root_mem_foldl fun _ => step_of_mem_steps]
    simp [h]

/-- Whether a path is absolute can be told from its stack. -/
theorem isAbsolute_of_stack_eq {p q : Path} (h : p.stack = q.stack) : p.isAbsolute = q.isAbsolute := by
  rw [Bool.eq_iff_iff, ← root_mem_stack, ← root_mem_stack, h]

/-- Folding keeps absolute paths absolute and relative ones relative. -/
@[simp] theorem isAbsolute_normalize (p : Path) : p.normalize.isAbsolute = p.isAbsolute :=
  isAbsolute_of_stack_eq (stack_normalize p)

/-- An absolute path folds to the root and names. -/
theorem stack_reverse_of_isAbsolute {p : Path} (h : p.isAbsolute = true) :
    ∃ ns, (∀ n ∈ ns, ValidName n) ∧ p.stack.reverse = .root :: names ns := by
  obtain ⟨ns, hns, hst | ⟨k, hst⟩⟩ := (normalStack_stack p).reverse_eq
  · exact ⟨ns, hns, hst⟩
  · have hroot : .root ∈ p.stack.reverse := List.mem_reverse.mpr (root_mem_stack.mpr h)
    rw [hst] at hroot
    exact (step_of_mem_climb hns _ hroot).elim

/-- A relative path folds to a climb. -/
theorem stack_reverse_of_relative {p : Path} (h : p.isAbsolute = false) :
    ∃ k ns, (∀ n ∈ ns, ValidName n) ∧ p.stack.reverse = climb k ns := by
  obtain ⟨ns, hns, hst | ⟨k, hst⟩⟩ := (normalStack_stack p).reverse_eq
  · have hroot : .root ∈ p.stack := List.mem_reverse.mp (by rw [hst]; simp)
    rw [root_mem_stack, h] at hroot
    exact absurd hroot (by decide)
  · exact ⟨k, ns, hns, hst⟩

/-! ## Joining and resolving -/

/-- Joining goes on with the first stack where the second path starts. -/
theorem stack_join {p q : Path} (hq : q.isAbsolute = false) :
    (p.join q).stack = q.steps.foldl foldComponent p.stack := by
  have ha := isAbsolute_join (p := p) hq
  by_cases h : p.isAbsolute = true
  · rw [stack_of_isAbsolute (ha.trans h), steps_join hq, List.foldl_append, stack_of_isAbsolute h]
  · have h' : p.isAbsolute = false := by simpa using h
    rw [stack_of_relative (ha.trans h'), steps_join hq, List.foldl_append, stack_of_relative h']

/-- An absolute path does not care what it is resolved against. -/
theorem resolve_of_isAbsolute {base p : Path} (hp : p.isAbsolute = true) :
    base.resolve p = p.normalize := by
  rw [resolve, if_pos hp]

/-- A relative path is joined to the base, and folded. -/
theorem resolve_of_relative {base p : Path} (hp : p.isAbsolute = false) :
    base.resolve p = (base.join p).normalize := by
  rw [resolve, if_neg (by rw [hp]; decide)]

/-- The stack of a resolved absolute path is its own. -/
theorem stack_resolve_of_isAbsolute {base p : Path} (hp : p.isAbsolute = true) :
    (base.resolve p).stack = p.stack := by
  rw [resolve_of_isAbsolute hp, stack_normalize]

/-- The stack of a resolved relative path grows out of that of the base. -/
theorem stack_resolve_of_relative {base p : Path} (hp : p.isAbsolute = false) :
    (base.resolve p).stack = p.steps.foldl foldComponent base.stack := by
  rw [resolve_of_relative hp, stack_normalize, stack_join hp]

/-- A resolved path is folded. -/
@[simp] theorem normalize_resolve (base p : Path) : (base.resolve p).normalize = base.resolve p := by
  unfold resolve
  split <;> exact normalize_normalize _

/-- Folded paths with the same stack are the same path, to the letter. -/
theorem eq_of_stack_eq {p q : Path} (hp : p.normalize = p) (hq : q.normalize = q)
    (h : p.stack = q.stack) : p = q := by
  rw [← hp, ← hq, normalize_eq_iff]
  exact h

/-- What is resolved against an absolute base is absolute. -/
theorem isAbsolute_resolve {base : Path} (hb : base.isAbsolute = true) (p : Path) :
    (base.resolve p).isAbsolute = true := by
  by_cases hp : p.isAbsolute = true
  · rw [resolve_of_isAbsolute hp, isAbsolute_normalize, hp]
  · have hp' : p.isAbsolute = false := by simpa using hp
    rw [resolve_of_relative hp', isAbsolute_normalize, isAbsolute_join hp', hb]

/-! ## Characters -/

/-- Folding invents no components but the root and steps up. -/
theorem text_of_mem_foldl {cs st : List Component} {c : Component}
    (h : c ∈ cs.foldl foldComponent st) : c ∈ cs ∨ c ∈ st ∨ c = .root ∨ c = .parent := by
  induction cs generalizing st with
  | nil => exact .inr (.inl h)
  | cons d cs ih =>
      rcases ih h with h | h | h
      · exact .inl (by simp [h])
      · have hd : c = d ∨ c ∈ st ∨ c = .root ∨ c = .parent := by
          cases d with
          | root => exact .inr (.inr (.inl (by simpa [foldComponent] using h)))
          | current => exact .inr (.inl h)
          | name n => exact (List.mem_cons.mp h).imp id .inl
          | parent =>
              cases st with
              | nil => exact .inl (by simpa [foldComponent] using h)
              | cons e st =>
                  cases e with
                  | root => exact .inr (.inl h)
                  | current => exact (List.mem_cons.mp h).imp id .inl
                  | parent => exact (List.mem_cons.mp h).imp id .inl
                  | name n => exact .inr (.inl (List.mem_cons_of_mem _ h))
        rcases hd with rfl | hd
        · exact .inl (by simp)
        · exact .inr hd
      · exact .inr (.inr h)

/-- A folded component is the root, a step up or a step of the path. -/
theorem mem_stack {p : Path} {c : Component} (h : c ∈ p.stack) :
    c ∈ p.steps ∨ c = .root ∨ c = .parent := by
  by_cases ha : p.isAbsolute = true
  · rw [stack_of_isAbsolute ha] at h
    rcases text_of_mem_foldl h with h | h | h
    · exact .inl h
    · exact .inr (.inl (by simpa using h))
    · exact .inr h
  · rw [stack_of_relative (by simpa using ha)] at h
    rcases text_of_mem_foldl h with h | h | h
    · exact .inl h
    · exact absurd h (by simp)
    · exact .inr h

/-- A character of a folded component is a slash, a dot or a character of the path. -/
theorem mem_text_of_mem_stack {p : Path} {c : Component} {d : Char} (h : c ∈ p.stack)
    (hd : d ∈ c.text) : d ∈ p.text ∨ d = '/' ∨ d = '.' := by
  rcases mem_stack h with h | rfl | rfl
  · exact .inl (mem_text_of_mem_steps h hd)
  · exact .inr (.inl (by simpa [Component.text] using hd))
  · exact .inr (.inr (by simpa [Component.text] using hd))

/-- Folding invents no characters but slashes and dots. -/
theorem mem_text_normalize {p : Path} {d : Char} (h : d ∈ p.normalize.text) :
    d ∈ p.text ∨ d = '/' ∨ d = '.' := by
  rcases mem_text_ofComponents h with h | ⟨c, hc, hd⟩
  · exact .inr (.inl h)
  · exact mem_text_of_mem_stack (List.mem_reverse.mp hc) hd

end Path

end Typings
