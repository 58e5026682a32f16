import Mathlib.Data.List.Induction
import Typings.Path
import Typings.Proofs.Text

/-!
# `Components` — spellings and what they stand for

A list of components that some path has is spelled plainly by `ofComponents`, and the plain spelling
has just these components (`components_ofComponents`).  Joining two paths appends the steps of the
second (`steps_join`).

* `Path.ValidName`, `Component.Step`: the names and the steps that a path can have behind its start.
* `Path.steps`: the components behind the start; `components_of_isAbsolute`, `components_of_relative`.
* `text_ofComponents`, `text_ofComponents_root`: the plain spelling.
* `fileName?_eq_some_iff`: the file name is the last step.
* `mem_text_of_mem_steps`, `mem_text_ofComponents`: spellings bring no characters of their own but
  slashes.
-/

namespace Typings

namespace Path

/-! ## Steps -/

/-- The names between two slashes. -/
def ValidName (t : Text) : Prop := t ≠ [] ∧ t ≠ "." ∧ t ≠ ".." ∧ '/' ∉ t

end Path

/-- What can stand behind the start of a path: a name or one step up. -/
def Component.Step : Component → Prop
  | .parent => True
  | .name t => Path.ValidName t
  | _ => False

/-- A step is never spelled with nothing. -/
theorem Component.Step.text_ne_nil {c : Component} (h : c.Step) : c.text ≠ [] := by
  cases c with
  | root => exact h.elim
  | current => exact h.elim
  | parent => decide
  | name t => exact h.1

/-- A step has no slash in its spelling, so it is one piece of a path. -/
theorem Component.Step.slash_not_mem {c : Component} (h : c.Step) : '/' ∉ c.text := by
  cases c with
  | root => exact h.elim
  | current => exact h.elim
  | parent => decide
  | name t => exact h.2.2.2

/-- A step is not spelled `.`, which is passed over. -/
theorem Component.Step.text_ne_dot {c : Component} (h : c.Step) : c.text ≠ "." := by
  cases c with
  | root => exact h.elim
  | current => exact h.elim
  | parent => decide
  | name t => exact h.2.1

namespace Path

/-- The components of a path behind its start. -/
def steps (p : Path) : List Component := (List.splitOn '/' p.text).filterMap pieceComponent?

/-- The spelling of a step is read as this step. -/
theorem pieceComponent?_text {c : Component} (h : c.Step) : pieceComponent? c.text = some c := by
  cases c with
  | root => exact h.elim
  | current => exact h.elim
  | parent => decide
  | name t =>
      obtain ⟨h1, h2, h3, -⟩ := h
      have h1' : t.isEmpty = false := by simpa using h1
      have h2' : (t == ".") = false := beq_eq_false_iff_ne.mpr h2
      have h3' : (t == "..") = false := beq_eq_false_iff_ne.mpr h3
      simp only [pieceComponent?, Component.text, h1', h2', h3']
      rfl

/-- A piece that is read as a component is the spelling of a step. -/
theorem step_of_pieceComponent? {t : Text} {c : Component} (h : pieceComponent? t = some c)
    (hs : '/' ∉ t) : c.Step ∧ c.text = t := by
  unfold pieceComponent? at h
  split at h
  · exact absurd h (by simp)
  · rename_i h1
    rw [Bool.or_eq_true, not_or, List.isEmpty_iff, beq_iff_eq] at h1
    split at h
    · rename_i h2
      obtain rfl := Option.some.inj h
      exact ⟨trivial, (beq_iff_eq.mp h2).symm⟩
    · rename_i h2
      obtain rfl := Option.some.inj h
      rw [beq_iff_eq] at h2
      exact ⟨⟨h1.1, h1.2, h2, hs⟩, rfl⟩

/-- Behind the start of a path there are only steps. -/
theorem step_of_mem_steps {p : Path} {c : Component} (h : c ∈ p.steps) : c.Step := by
  obtain ⟨piece, hp, hc⟩ := List.mem_filterMap.mp h
  exact (step_of_pieceComponent? hc (Text.not_mem_of_mem_splitOn hp)).1

/-- A path of one step has no other. -/
theorem steps_text {c : Component} (h : c.Step) : (⟨c.text⟩ : Path).steps = [c] := by
  have hpiece := pieceComponent?_text h
  rw [steps, List.splitOn_eq_singleton h.slash_not_mem, List.filterMap_cons_some hpiece]
  rfl

/-! ## How a path starts -/

/-- An absolute path is the root and its steps. -/
theorem components_of_isAbsolute {p : Path} (h : p.isAbsolute = true) :
    p.components = .root :: p.steps := by
  unfold components
  rw [if_pos h]
  rfl

/-- A relative path is its steps, with a `.` in front of them if it was written so. -/
theorem components_of_relative {p : Path} (h : p.isAbsolute = false) :
    p.components = p.steps ∨ p.components = .current :: p.steps := by
  unfold components
  rw [if_neg (by rw [h]; decide)]
  split
  · exact .inr rfl
  · exact .inl rfl

/-- How a path starts: at the root, with a `.`, or with its first step. -/
theorem components_eq_append_steps (p : Path) :
    p.components = (if p.isAbsolute then [.root]
      else if (List.splitOn '/' p.text).head? = some "." then [.current] else []) ++ p.steps := by
  unfold components
  by_cases ha : p.isAbsolute = true
  · rw [if_pos ha, if_pos ha]
    rfl
  · rw [if_neg ha, if_neg ha]
    by_cases hdot : (List.splitOn '/' p.text).head? = some "."
    · rw [if_pos (beq_iff_eq.mpr hdot), if_pos hdot]
      rfl
    · rw [if_neg (mt beq_iff_eq.mp hdot), if_neg hdot]
      rfl

/-- A component is the start of a path or a step. -/
theorem step_of_mem_components {p : Path} {c : Component} (h : c ∈ p.components) :
    c = .root ∨ c = .current ∨ c.Step := by
  rw [components_eq_append_steps, List.mem_append] at h
  rcases h with h | h
  · split at h
    · exact .inl (List.mem_singleton.mp h)
    · split at h
      · exact .inr (.inl (List.mem_singleton.mp h))
      · exact nomatch h
  · exact .inr (.inr (step_of_mem_steps h))

/-- The steps behind the start are known from the components. -/
theorem steps_of_components {p q : Path} (h : p.components = q.components) : p.steps = q.steps := by
  have hkept (r : Path) : r.steps = r.components.filter fun c => !(c == .root || c == .current) := by
    have hsteps : r.steps.filter (fun c => !(c == .root || c == .current)) = r.steps := by
      refine List.filter_eq_self.mpr fun c hc => ?_
      have hstep := step_of_mem_steps hc
      cases c with
      | root => exact hstep.elim
      | current => exact hstep.elim
      | parent => rfl
      | name t => rfl
    rw [components_eq_append_steps, List.filter_append, hsteps]
    split
    · rfl
    · split <;> rfl
  rw [hkept p, hkept q, h]

/-- The root is a component of the absolute paths only. -/
theorem isAbsolute_iff_root_mem {p : Path} : p.isAbsolute = true ↔ .root ∈ p.components := by
  constructor
  · intro h
    rw [components_of_isAbsolute h]
    simp
  · intro h
    by_contra ha
    rw [Bool.not_eq_true] at ha
    rcases components_of_relative ha with hc | hc
    · rw [hc] at h
      exact step_of_mem_steps h
    · rw [hc] at h
      exact step_of_mem_steps ((List.mem_cons.mp h).resolve_left (by simp))

/-! ## The plain spelling -/

/-- A path without slashes is relative. -/
theorem isAbsolute_of_slash_not_mem {t : Text} (h : '/' ∉ t) : (⟨t⟩ : Path).isAbsolute = false := by
  unfold isAbsolute
  cases t with
  | nil => rfl
  | cons c t =>
      have hc : c ≠ '/' := fun he => h (by simp [he])
      simp [hc]

/-- A relative path is joined with a slash in between, unless one is there. -/
theorem join_of_relative {p q : Path} (hq : q.isAbsolute = false) (hp : p.text ≠ [])
    (hl : p.text.getLast? ≠ some '/') : p.join q = ⟨p.text ++ '/' :: q.text⟩ := by
  have hp' : p.text.isEmpty = false := by simpa using hp
  have hl' : (p.text.getLast? == some '/') = false := beq_eq_false_iff_ne.mpr hl
  unfold join
  rw [hq, hp', hl']
  simp

/-- Components are spelled by joining them one after the other. -/
theorem ofComponents_concat (cs : List Component) (c : Component) :
    ofComponents (cs ++ [c]) = (ofComponents cs).join ⟨c.text⟩ := by
  simp [ofComponents, List.foldl_append]

/-- A last piece is joined behind the others. -/
theorem intercalate_concat {sep t : Text} {ts : List Text} (h : ts ≠ []) :
    List.intercalate sep (ts ++ [t]) = List.intercalate sep ts ++ sep ++ t := by
  induction ts with
  | nil => exact absurd rfl h
  | cons u ts ih =>
      cases ts with
      | nil => simp
      | cons v ts =>
          have hrest := ih (by simp)
          rw [List.cons_append, List.intercalate_cons_of_ne_nil (by simp), hrest,
            List.intercalate_cons_of_ne_nil (l := u) (by simp)]
          simp

/-- The spelling of components none of which is the root: their texts with slashes between them.  It
    ends as the last of them ends. -/
theorem text_ofComponents {cs : List Component} (h : ∀ c ∈ cs, c.text ≠ [] ∧ '/' ∉ c.text) :
    (ofComponents cs).text = List.intercalate ['/'] (cs.map Component.text) ∧
      (cs ≠ [] → (ofComponents cs).text ≠ []) ∧ (ofComponents cs).text.getLast? ≠ some '/' := by
  induction cs using List.reverseRecOn with
  | nil => exact ⟨rfl, fun hne => absurd rfl hne, by simp [ofComponents, empty]⟩
  | append_singleton cs c ih =>
      obtain ⟨ht, hne, hl⟩ := ih fun d hd => h d (by simp [hd])
      obtain ⟨hc, hs⟩ := h c (by simp)
      have hlast : ∀ u : Text, (u ++ c.text).getLast? ≠ some '/' := by
        intro u hu
        rw [List.getLast?_append, List.getLast?_eq_some_getLast hc, Option.some_or] at hu
        exact hs (Option.some.inj hu ▸ List.getLast_mem hc)
      by_cases hcs : cs = []
      · subst hcs
        have hj : ofComponents ([] ++ [c]) = ⟨c.text⟩ := by
          rw [ofComponents_concat]
          simp [ofComponents, empty, join, isAbsolute_of_slash_not_mem hs]
        rw [hj]
        exact ⟨List.intercalate_singleton.symm, fun _ => hc, hlast []⟩
      · have hj : ofComponents (cs ++ [c]) = ⟨(ofComponents cs).text ++ '/' :: c.text⟩ := by
          rw [ofComponents_concat, join_of_relative (isAbsolute_of_slash_not_mem hs) (hne hcs) hl]
        rw [hj]
        refine ⟨?_, fun _ => by simp, ?_⟩
        · rw [List.map_append, List.map_singleton, intercalate_concat (by simpa using hcs), ht]
          simp
        · have := hlast ((ofComponents cs).text ++ ['/'])
          simpa using this

/-- The steps of a list all have a spelling, and no slash in it. -/
theorem text_ne_nil_of_step {cs : List Component} (h : ∀ c ∈ cs, c.Step) :
    ∀ c ∈ cs, c.text ≠ [] ∧ '/' ∉ c.text :=
  fun c hc => ⟨(h c hc).text_ne_nil, (h c hc).slash_not_mem⟩

/-- An absolute spelling has a slash in front of its steps. -/
theorem text_ofComponents_root {cs : List Component} (h : ∀ c ∈ cs, c.Step) :
    (ofComponents (.root :: cs)).text = '/' :: List.intercalate ['/'] (cs.map Component.text) := by
  have hroot : ofComponents [.root] = ⟨['/']⟩ := by decide
  induction cs using List.reverseRecOn with
  | nil => rw [hroot]; rfl
  | append_singleton cs c ih =>
      have hc : c.Step := h c (by simp)
      have ht := ih fun d hd => h d (by simp [hd])
      have hq := isAbsolute_of_slash_not_mem hc.slash_not_mem
      rw [← List.cons_append, ofComponents_concat]
      by_cases hcs : cs = []
      · subst hcs
        rw [hroot]
        simp [join, hq]
      · -- The spelling ends as the last of the steps does, so a slash goes in between.
        obtain ⟨hi, hne, hl⟩ := text_ofComponents
          (text_ne_nil_of_step fun d hd => h d (List.mem_append_left _ hd))
        rw [hi] at hne hl
        have hlast : (ofComponents (.root :: cs)).text.getLast? ≠ some '/' := by
          rw [ht, List.getLast?_cons_of_ne_nil (hne hcs)]
          exact hl
        rw [join_of_relative hq (by rw [ht]; simp) hlast, ht, List.map_append, List.map_singleton,
          intercalate_concat (by simpa using hcs)]
        simp

/-- Steps are found again in their spellings. -/
theorem filterMap_pieceComponent?_map_text {cs : List Component} (h : ∀ c ∈ cs, c.Step) :
    (cs.map Component.text).filterMap pieceComponent? = cs := by
  induction cs with
  | nil => rfl
  | cons c cs ih =>
      rw [List.map_cons, List.filterMap_cons_some (pieceComponent?_text (h c (by simp))),
        ih fun d hd => h d (by simp [hd])]

/-- Cut at its slashes, a spelling gives the spellings of the steps. -/
theorem splitOn_intercalate_text {cs : List Component} (h : ∀ c ∈ cs, c.Step) (hne : cs ≠ []) :
    List.splitOn '/' (List.intercalate ['/'] (cs.map Component.text)) = cs.map Component.text := by
  refine List.splitOn_intercalate '/' ?_ (by simpa using hne)
  intro t ht
  obtain ⟨c, hc, rfl⟩ := List.mem_map.mp ht
  exact (h c hc).slash_not_mem

/-- The plain spelling of steps has just these components. -/
theorem components_ofComponents {cs : List Component} (h : ∀ c ∈ cs, c.Step) :
    (ofComponents cs).components = cs ∧ (ofComponents cs).isAbsolute = false := by
  cases cs with
  | nil => exact ⟨by decide, by decide⟩
  | cons c cs =>
      have hc : c.Step := h c (by simp)
      obtain ⟨ht, -, -⟩ := text_ofComponents (text_ne_nil_of_step h)
      have hsplit := splitOn_intercalate_text h (by simp)
      have habs : (ofComponents (c :: cs)).isAbsolute = false := by
        obtain ⟨d, u, hd⟩ := List.exists_cons_of_ne_nil hc.text_ne_nil
        have hds : d ≠ '/' := fun he => hc.slash_not_mem (by rw [hd, he]; simp)
        have hhead : (ofComponents (c :: cs)).text.head? = some d := by
          rw [ht]
          cases cs with
          | nil => simp [hd]
          | cons e cs => simp [hd]
        simp [isAbsolute, hhead, hds]
      refine ⟨?_, habs⟩
      unfold components
      rw [if_neg (by rw [habs]; decide), ht, hsplit, filterMap_pieceComponent?_map_text h, if_neg]
      rw [beq_iff_eq]
      intro he
      exact hc.text_ne_dot (Option.some.inj he)

/-- The plain spelling of an absolute path has just these components. -/
theorem components_ofComponents_root {cs : List Component} (h : ∀ c ∈ cs, c.Step) :
    (ofComponents (.root :: cs)).components = .root :: cs ∧
      (ofComponents (.root :: cs)).isAbsolute = true := by
  have ht := text_ofComponents_root h
  have habs : (ofComponents (.root :: cs)).isAbsolute = true := by simp [isAbsolute, ht]
  refine ⟨?_, habs⟩
  rw [components_of_isAbsolute habs, steps, ht, Text.splitOn_cons_sep]
  cases cs with
  | nil => rfl
  | cons c cs =>
      rw [splitOn_intercalate_text h (by simp), List.filterMap_cons_none (by rfl),
        filterMap_pieceComponent?_map_text h]

/-! ## Joining -/

/-- The steps of a relative path come behind those of the path it is joined to. -/
theorem steps_join {p q : Path} (hq : q.isAbsolute = false) : (p.join q).steps = p.steps ++ q.steps := by
  have hsilent : pieceComponent? [] = none := rfl
  by_cases hp : p.text = []
  · have hj : (p.join q).text = q.text := by simp [join, hq, hp]
    have hn : p.steps = [] := by simp [steps, hp, List.splitOn_nil, hsilent]
    rw [hn, List.nil_append, steps, hj]
    rfl
  · by_cases hl : p.text.getLast? = some '/'
    · -- The slash at the end makes an empty piece, which stands for nothing.
      obtain ⟨u, hu⟩ := List.getLast?_eq_some_iff.mp hl
      have hj : (p.join q).text = u ++ '/' :: q.text := by simp [join, hq, hu]
      have hps : p.steps = (List.splitOn '/' u).filterMap pieceComponent? := by
        rw [steps, hu, List.splitOn_append_cons_self, List.splitOn_nil, List.filterMap_append]
        simp [hsilent]
      rw [steps, hj, List.splitOn_append_cons_self, List.filterMap_append, hps]
      rfl
    · rw [join_of_relative hq hp hl, steps, List.splitOn_append_cons_self, List.filterMap_append]
      rfl

/-- A path that a relative one is joined to stays what it is. -/
theorem isAbsolute_join {p q : Path} (hq : q.isAbsolute = false) :
    (p.join q).isAbsolute = p.isAbsolute := by
  by_cases hp : p.text = []
  · have hj : p.join q = q := by simp [join, hq, hp]
    rw [hj, hq]
    simp [isAbsolute, hp]
  · obtain ⟨c, u, hc⟩ := List.exists_cons_of_ne_nil hp
    unfold join
    rw [hq]
    simp only [Bool.false_eq_true, if_false]
    split <;> simp [isAbsolute, hc]

/-- Behind a path that is spelled out, a relative path adds its steps. -/
theorem components_join {p q : Path} (hq : q.isAbsolute = false) (hp : p.text ≠ []) :
    (p.join q).components = p.components ++ q.steps := by
  have hfirst (t : Text) (more : List Text) :
      (List.splitOn '/' t ++ more).head? = (List.splitOn '/' t).head? := by
    have hne : List.splitOn '/' t ≠ [] := List.splitOnP_ne_nil _ t
    rw [List.head?_append, Option.or_of_isSome (List.isSome_head?.mpr hne)]
  have hhead : (List.splitOn '/' (p.join q).text).head? = (List.splitOn '/' p.text).head? := by
    by_cases hl : p.text.getLast? = some '/'
    · obtain ⟨u, hu⟩ := List.getLast?_eq_some_iff.mp hl
      have hj : (p.join q).text = u ++ '/' :: q.text := by simp [join, hq, hu]
      rw [hj, hu, List.splitOn_append_cons_self, List.splitOn_append_cons_self, hfirst, hfirst]
    · rw [join_of_relative hq hp hl, List.splitOn_append_cons_self, hfirst]
  rw [components_eq_append_steps, components_eq_append_steps p, isAbsolute_join hq, hhead, steps_join hq,
    List.append_assoc]

/-- A name goes behind all components of the directory it is joined to. -/
theorem components_join_name (dir : Path) {n : Text} (hn : ValidName n) :
    (dir.join ⟨n⟩).components = dir.components ++ [.name n] := by
  have hrel : (⟨n⟩ : Path).isAbsolute = false := isAbsolute_of_slash_not_mem hn.2.2.2
  have hsteps : (⟨n⟩ : Path).steps = [.name n] := steps_text (c := .name n) hn
  by_cases hdir : dir.text = []
  · obtain rfl : dir = ⟨[]⟩ := congrArg Path.mk hdir
    have hjoin : (⟨[]⟩ : Path).join ⟨n⟩ = ⟨n⟩ := by simp [join, hrel]
    have hdot : ¬ (List.splitOn '/' n).head? = some "." := by
      rw [List.splitOn_eq_singleton hn.2.2.2]
      exact fun h => hn.2.1 (Option.some.inj h)
    rw [hjoin, components_eq_append_steps, hrel, hsteps, if_neg Bool.false_ne_true, if_neg hdot]
    rfl
  · rw [components_join hrel hdir, hsteps]

/-! ## The last component -/

/-- The file name is the last step of the path, if that is a name. -/
theorem fileName?_eq_some_iff {p : Path} {n : Text} :
    p.fileName? = some n ↔ ∃ front, p.steps = front ++ [.name n] := by
  constructor
  · intro h
    have hlast : p.components.getLast? = some (.name n) := by
      unfold fileName? at h
      split at h
      · next t ht => rw [ht, Option.some.inj h]
      · cases h
    -- The start of the path is no name, so the last component is a step.
    have hstart : ∀ c : Component, c ≠ .name n → (c :: p.steps).getLast? = some (.name n) →
        p.steps.getLast? = some (.name n) := by
      intro c hc hcons
      cases hs : p.steps with
      | nil =>
          rw [hs] at hcons
          exact absurd (Option.some.inj hcons) hc
      | cons d ds => rwa [hs, List.getLast?_cons_cons] at hcons
    apply List.getLast?_eq_some_iff.1
    by_cases ha : p.isAbsolute = true
    · rw [components_of_isAbsolute ha] at hlast
      exact hstart .root (by simp) hlast
    · rcases components_of_relative (by simpa using ha) with hc | hc
      · rwa [hc] at hlast
      · rw [hc] at hlast
        exact hstart .current (by simp) hlast
  · rintro ⟨front, hsteps⟩
    have hlast : p.components.getLast? = some (.name n) := by
      by_cases ha : p.isAbsolute = true
      · rw [components_of_isAbsolute ha, hsteps, ← List.cons_append, List.getLast?_concat]
      · rcases components_of_relative (by simpa using ha) with hc | hc
        · rw [hc, hsteps, List.getLast?_concat]
        · rw [hc, hsteps, ← List.cons_append, List.getLast?_concat]
    rw [fileName?, hlast]

/-- The file name is the last piece of the spelling, if that is a name. -/
theorem fileName?_of_last {p : Path} {n : Text} (hn : ValidName n)
    (ht : p.text = n ∨ ∃ front, p.text = front ++ '/' :: n) : p.fileName? = some n := by
  obtain ⟨pieces, hpieces⟩ := Text.splitOn_last hn.2.2.2 ht
  have hsteps : p.steps = pieces.filterMap pieceComponent? ++ [.name n] := by
    rw [steps, hpieces, List.filterMap_append]
    exact congrArg _ (List.filterMap_cons_some (pieceComponent?_text (c := .name n) hn))
  exact fileName?_eq_some_iff.2 ⟨_, hsteps⟩

/-! ## Characters -/

/-- The steps of a path are spelled with characters of the path. -/
theorem mem_text_of_mem_steps {p : Path} {c : Component} {d : Char} (hc : c ∈ p.steps)
    (hd : d ∈ c.text) : d ∈ p.text := by
  obtain ⟨piece, hp, hpc⟩ := List.mem_filterMap.mp hc
  rw [(step_of_pieceComponent? hpc (Text.not_mem_of_mem_splitOn hp)).2] at hd
  exact Text.mem_of_mem_splitOn hp hd

/-- A spelling has no characters of its own but slashes. -/
theorem mem_text_ofComponents {cs : List Component} {d : Char} (h : d ∈ (ofComponents cs).text) :
    d = '/' ∨ ∃ c ∈ cs, d ∈ c.text := by
  induction cs using List.reverseRecOn with
  | nil => simp [ofComponents, empty] at h
  | append_singleton cs c ih =>
      rw [ofComponents_concat] at h
      have hlast : d ∈ c.text → d = '/' ∨ ∃ e ∈ cs ++ [c], d ∈ e.text :=
        fun hd => .inr ⟨c, by simp, hd⟩
      have hfront : d ∈ (ofComponents cs).text → d = '/' ∨ ∃ e ∈ cs ++ [c], d ∈ e.text := by
        intro hd
        rcases ih hd with hs | ⟨e, he, hd⟩
        · exact .inl hs
        · exact .inr ⟨e, by simp [he], hd⟩
      unfold join at h
      split at h
      · exact hlast h
      · split at h
        · rcases List.mem_append.mp h with h | h
          · exact hfront h
          · exact hlast h
        · rcases List.mem_append.mp h with h | h
          · rcases List.mem_append.mp h with h | h
            · exact hfront h
            · exact .inl (by simpa using h)
          · exact hlast h

end Path

end Typings
