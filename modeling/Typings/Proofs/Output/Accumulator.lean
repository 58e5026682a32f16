import Typings.Output.Accumulator
import Typings.Proofs.Path.Map

/-!
# `Accumulator` — what recorded outputs look like from outside

An accumulator is looked at place by place: the content stored there, and the sources that own it.
Recording and forgetting are described by what they do to both.

* `Accumulator.Owns`: a source has recorded an output at a place.
* `Accumulator.Sound`: the maps are in order, places are folded, and every stored place has an owner.
* `get?_recordFor`, `owns_recordFor`, `get?_forget_of_owned`, `get?_forget_of_kept`,
  `owns_forget`: the two operations.
* `get?_recordAll`, `owns_recordAll`: some outputs recorded for one source.

Ownership is counted by place, however source and place are spelled. An output that several sources
share has the text of the last that recorded it, whoever is forgotten afterwards.
-/

namespace Typings

namespace Accumulator

variable {a : Accumulator}

/-! ## Owners -/

/-- A source has recorded an output at a place. -/
def Owns (a : Accumulator) (source place : Path) : Prop := (a.owned source).contains place = true

/-- A source owns a place when the place is in the set recorded for the source. -/
theorem owns_iff {source place : Path} :
    a.Owns source place ↔ ∃ s, a.owners.get? source = some s ∧ s.contains place = true := by
  unfold Owns owned
  cases h : a.owners.get? source with
  | none =>
      refine ⟨fun hc => absurd hc (by simp [PathMap.contains]), ?_⟩
      rintro ⟨s, hs, -⟩
      cases hs
  | some s =>
      refine ⟨fun hc => ⟨s, rfl, hc⟩, ?_⟩
      rintro ⟨s', hs, hc⟩
      rw [Option.some.inj hs]
      exact hc

/-- Ownership does not depend on how the source and the place are spelled. -/
theorem owns_congr {s s' p p' : Path} (hs : s.same s' = true) (hp : p.same p' = true) :
    a.Owns s p ↔ a.Owns s' p' := by
  rw [Owns, Owns, owned, owned, PathMap.get?_congr hs, PathMap.contains_eq, PathMap.contains_eq,
    PathMap.get?_congr hp]

theorem not_owns_empty (source place : Path) : ¬ Owns {} source place :=
  fun h => Bool.false_ne_true h

/-- Some other source has recorded an output at the place. -/
def Shared (a : Accumulator) (source place : Path) : Prop :=
  ∃ other : Path, source.same other = false ∧ a.Owns other place

/-- The search through the other sources' sets finds a place exactly when it is shared. -/
theorem any_contains_iff (h : a.owners.Ordered) {source place : Path} :
    ((a.owners.erase source).values.any fun s => s.contains place) = true ↔ a.Shared source place := by
  have hget (q : Path) : source.same q = false → (a.owners.erase source).get? q = a.owners.get? q := by
    intro hq
    rw [PathMap.get?_erase, hq]
    rfl
  constructor
  · intro hany
    obtain ⟨s, hs, hc⟩ := List.any_eq_true.mp hany
    obtain ⟨⟨q, s⟩, he, rfl⟩ := List.mem_map.mp hs
    have hmem := List.mem_filter.mp he
    have hq : source.same q = false := by
      rw [Path.same_comm]
      simpa using hmem.2
    exact ⟨q, hq, owns_iff.mpr ⟨s, PathMap.get?_of_mem h hmem.1, hc⟩⟩
  · rintro ⟨q, hq, ho⟩
    obtain ⟨s, hs, hc⟩ := owns_iff.mp ho
    rw [← hget q hq] at hs
    obtain ⟨r, hr, -⟩ := PathMap.mem_of_get? hs
    exact List.any_eq_true.mpr ⟨s, List.mem_map_of_mem hr, hc⟩

/-! ## Recording -/

/-- A record puts its text at its own place and leaves every other text. -/
theorem get?_recordFor (a : Accumulator) (source place q : Path) (t : Text) :
    (a.recordFor source place t).files.get? q = if place.same q then some t else a.files.get? q :=
  PathMap.get?_insert _ _ _ _

/-- A record adds one place to what its source owns and nothing else. -/
theorem owns_recordFor {source place s q : Path} {t : Text} :
    (a.recordFor source place t).Owns s q ↔
      a.Owns s q ∨ source.same s = true ∧ place.same q = true := by
  have hget : (a.recordFor source place t).owned s
      = if source.same s then PathSet.add (a.owned source) place else a.owned s := by
    rw [owned, recordFor, PathMap.get?_insert]
    split <;> rfl
  rw [Owns, hget]
  cases hs : source.same s with
  | false => simp [Owns]
  | true =>
      have ho : a.Owns s q ↔ a.Owns source q := by
        rw [Path.same_comm] at hs
        exact owns_congr hs (Path.same_self q)
      rw [if_pos rfl, PathSet.add, PathMap.contains_eq, PathMap.get?_insert, ho, Owns,
        PathMap.contains_eq]
      cases hp : place.same q <;> simp

/-- Some outputs recorded for one source, one after the other. -/
def recordAll (source : Path) (outputs : List OutputFile) (a : Accumulator) : Accumulator :=
  outputs.foldl (fun a o => a.recordFor source o.path o.content) a

/-- What the last of some outputs at a place says. -/
def lastAt? (outputs : List OutputFile) (q : Path) : Option Text :=
  (outputs.reverse.find? fun o => o.path.same q).map (·.content)

/-- One output more takes its own place over and leaves the others. -/
theorem lastAt?_concat (outputs : List OutputFile) (o : OutputFile) (q : Path) :
    lastAt? (outputs ++ [o]) q = if o.path.same q then some o.content else lastAt? outputs q := by
  unfold lastAt?
  rw [List.reverse_append]
  cases h : o.path.same q <;> simp [h]

/-- The first output counts only where no later one has its place. -/
theorem lastAt?_cons (o : OutputFile) (outputs : List OutputFile) (q : Path) :
    lastAt? (o :: outputs) q
      = (lastAt? outputs q).or (if o.path.same q then some o.content else none) := by
  unfold lastAt?
  rw [List.reverse_cons, List.find?_append]
  cases outputs.reverse.find? fun o => o.path.same q with
  | some o' => rfl
  | none => cases h : o.path.same q <;> simp [h]

/-- Of two rows of outputs the later has precedence at each place. -/
theorem lastAt?_append (outputs more : List OutputFile) (q : Path) :
    lastAt? (outputs ++ more) q = (lastAt? more q).or (lastAt? outputs q) := by
  unfold lastAt?
  rw [List.reverse_append, List.find?_append]
  cases more.reverse.find? fun o => o.path.same q <;> rfl

/-- A place that no output has holds nothing. -/
theorem lastAt?_eq_none {outputs : List OutputFile} {q : Path}
    (h : ∀ o ∈ outputs, o.path.same q = false) : lastAt? outputs q = none := by
  rw [lastAt?, Option.map_eq_none_iff, List.find?_eq_none]
  intro o ho
  rw [h o (List.mem_reverse.mp ho)]
  decide

/-- Outputs at different places stand for themselves. -/
theorem lastAt?_of_mem {outputs : List OutputFile} {o : OutputFile} {q : Path}
    (h : outputs.Pairwise fun o o' => o.path.same o'.path = false) (ho : o ∈ outputs)
    (hs : o.path.same q = true) : lastAt? outputs q = some o.content := by
  induction outputs with
  | nil => exact absurd ho (by simp)
  | cons o' outputs ih =>
      obtain ⟨hhead, htail⟩ := List.pairwise_cons.mp h
      rw [lastAt?_cons]
      rcases List.mem_cons.mp ho with rfl | ho
      · have hnone : lastAt? outputs q = none := by
          refine lastAt?_eq_none fun o' ho' => ?_
          rw [Path.same_comm, ← Path.same_congr hs, hhead o' ho']
        rw [hnone, hs]
        rfl
      · rw [ih htail ho]
        rfl

/-- Outputs at different places may be listed in any order. -/
theorem lastAt?_perm {outputs outputs' : List OutputFile} (hperm : outputs.Perm outputs')
    (h : outputs.Pairwise fun o o' => o.path.same o'.path = false) (q : Path) :
    lastAt? outputs q = lastAt? outputs' q := by
  by_cases hq : ∃ o ∈ outputs, o.path.same q = true
  · obtain ⟨o, ho, hs⟩ := hq
    have h' : outputs'.Pairwise fun o o' => o.path.same o'.path = false :=
      h.perm hperm fun ho => by rwa [Path.same_comm]
    rw [lastAt?_of_mem h ho hs, lastAt?_of_mem h' (hperm.mem_iff.mp ho) hs]
  · have hnone : ∀ o ∈ outputs, o.path.same q = false := fun o ho => by
      by_contra hs
      exact hq ⟨o, ho, by simpa using hs⟩
    rw [lastAt?_eq_none hnone, lastAt?_eq_none fun o ho => hnone o (hperm.mem_iff.mpr ho)]

/-- A place holds something exactly when some output has it. -/
theorem isSome_lastAt? (outputs : List OutputFile) (q : Path) :
    (lastAt? outputs q).isSome = outputs.any (·.path.same q) := by
  rw [lastAt?, Option.isSome_map, Bool.eq_iff_iff, List.find?_isSome, List.any_eq_true]
  simp only [List.mem_reverse]

/-- The outputs are recorded one by one, the last of them last. -/
theorem recordAll_concat (source : Path) (outputs : List OutputFile) (o : OutputFile)
    (a : Accumulator) :
    recordAll source (outputs ++ [o]) a
      = (recordAll source outputs a).recordFor source o.path o.content := by
  rw [recordAll, List.foldl_append]
  rfl

/-- Recorded outputs stand at their places, the last one at each, and other places keep their texts. -/
theorem get?_recordAll (source : Path) (outputs : List OutputFile) (a : Accumulator) (q : Path) :
    (recordAll source outputs a).files.get? q = (lastAt? outputs q).or (a.files.get? q) := by
  induction outputs using List.reverseRecOn with
  | nil => rfl
  | append_singleton outputs o ih =>
      rw [recordAll_concat, get?_recordFor, ih, lastAt?_concat]
      split <;> rfl

/-- The outputs' places are added to what their source owns and nothing else. -/
theorem owns_recordAll {source s q : Path} {outputs : List OutputFile} :
    (recordAll source outputs a).Owns s q ↔
      a.Owns s q ∨ source.same s = true ∧ ∃ o ∈ outputs, o.path.same q = true := by
  induction outputs using List.reverseRecOn with
  | nil => exact ⟨.inl, fun h => h.elim id fun ⟨_, o, ho, _⟩ => absurd ho (by simp)⟩
  | append_singleton outputs o ih =>
      rw [recordAll_concat, owns_recordFor, ih]
      constructor
      · rintro ((h | ⟨hs, o', ho', hq⟩) | ⟨hs, hq⟩)
        · exact .inl h
        · exact .inr ⟨hs, o', List.mem_append_left _ ho', hq⟩
        · exact .inr ⟨hs, o, List.mem_append_right _ (List.mem_singleton_self o), hq⟩
      · rintro (h | ⟨hs, o', ho', hq⟩)
        · exact .inl (.inl h)
        · rcases List.mem_append.mp ho' with ho' | ho'
          · exact .inl (.inr ⟨hs, o', ho', hq⟩)
          · rw [List.mem_singleton.mp ho'] at hq
            exact .inr ⟨hs, hq⟩

/-! ## Forgetting -/

/-- What is dropped with a source is its own, shared with no other, and recorded. -/
theorem mem_dropped (h : a.owners.Ordered) {source p : Path} (hp : p ∈ a.dropped source) :
    a.Owns source p ∧ ¬ a.Shared source p ∧ a.files.contains p = true := by
  obtain ⟨hk, hc⟩ := List.mem_filter.mp hp
  rw [Bool.and_eq_true, Bool.not_eq_true', ← Bool.not_eq_true, any_contains_iff h] at hc
  obtain ⟨e, he, rfl⟩ := List.mem_map.mp hk
  exact ⟨List.any_eq_true.mpr ⟨e, he, Path.same_self e.1⟩, hc.1, hc.2⟩

/-- What only the source has recorded is dropped under some spelling. -/
theorem exists_mem_dropped (h : a.owners.Ordered) {source q : Path} (ho : a.Owns source q)
    (hs : ¬ a.Shared source q) (hf : a.files.contains q = true) :
    ∃ p ∈ a.dropped source, p.same q = true := by
  obtain ⟨⟨p, u⟩, he, hp⟩ := List.any_eq_true.mp ho
  refine ⟨p, List.mem_filter.mpr ⟨List.mem_map_of_mem he, ?_⟩, hp⟩
  have hsp : ¬ a.Shared source p := fun ⟨r, hr, hrp⟩ =>
    hs ⟨r, hr, (owns_congr (Path.same_self r) hp).mp hrp⟩
  rw [Bool.and_eq_true, Bool.not_eq_true', ← Bool.not_eq_true, any_contains_iff h]
  refine ⟨hsp, ?_⟩
  rw [PathMap.contains_eq, PathMap.get?_congr hp, ← PathMap.contains_eq]
  exact hf

/-- Erasing places one by one empties those places and no other. -/
theorem get?_foldl_erase {α : Type} (ps : List Path) (m : PathMap α) (q : Path) :
    (ps.foldl PathMap.erase m).get? q = if ps.any (·.same q) then none else m.get? q := by
  induction ps generalizing m with
  | nil => rfl
  | cons p ps ih =>
      rw [List.foldl_cons, ih, PathMap.get?_erase, List.any_cons]
      cases p.same q <;> simp

/-- Forgetting a source empties the places that only it owns. -/
theorem get?_forget_of_owned (h : a.owners.Ordered) {source q : Path} (ho : a.Owns source q)
    (hs : ¬ a.Shared source q) : (a.forget source).files.get? q = none := by
  rw [forget, get?_foldl_erase]
  cases hf : a.files.contains q with
  | false =>
      rw [PathMap.contains_eq, Option.isSome_eq_false_iff, Option.isNone_iff_eq_none] at hf
      rw [hf, ite_self]
  | true =>
      obtain ⟨p, hp, hpq⟩ := exists_mem_dropped h ho hs hf
      rw [if_pos (List.any_eq_true.mpr ⟨p, hp, hpq⟩)]

/-- Every other place keeps its content. -/
theorem get?_forget_of_kept (h : a.owners.Ordered) {source q : Path}
    (hk : a.Owns source q → a.Shared source q) :
    (a.forget source).files.get? q = a.files.get? q := by
  rw [forget, get?_foldl_erase, if_neg]
  intro hany
  obtain ⟨p, hp, hpq⟩ := List.any_eq_true.mp hany
  obtain ⟨hpo, hps, -⟩ := mem_dropped h hp
  obtain ⟨r, hr, hrq⟩ := hk ((owns_congr (Path.same_self source) hpq).mp hpo)
  exact hps ⟨r, hr, (owns_congr (Path.same_self r) hpq).mpr hrq⟩

/-- A source that is forgotten owns nothing, and what the others own stays. -/
theorem owns_forget {source s q : Path} :
    (a.forget source).Owns s q ↔ source.same s = false ∧ a.Owns s q := by
  have hget : (a.forget source).owned s = if source.same s then {} else a.owned s := by
    rw [owned, forget, PathMap.get?_erase]
    split <;> rfl
  rw [Owns, hget]
  cases source.same s with
  | false => simp [Owns]
  | true => simp [PathMap.contains]

/-! ## Sound accumulators -/

/-- The maps are in order, stored places are folded, and every stored place has an owner. -/
structure Sound (a : Accumulator) : Prop where
  files : a.files.Ordered
  folded : a.files.Folded
  owners : a.owners.Ordered
  owned : ∀ q, a.files.get? q ≠ none → ∃ s, a.Owns s q

theorem sound_empty : Sound {} where
  files := PathMap.ordered_empty
  folded := PathMap.folded_empty
  owners := PathMap.ordered_empty
  owned _ h := absurd rfl h

/-- A record at a plain place keeps the invariant. -/
theorem Sound.recordFor (h : a.Sound) (source : Path) {place : Path} (hp : place.normalize = place)
    (t : Text) : (a.recordFor source place t).Sound where
  files := h.files.insert _ _
  folded := h.folded.insert hp _
  owners := h.owners.insert _ _
  owned q hq := by
    rw [get?_recordFor] at hq
    cases hs : place.same q with
    | true => exact ⟨source, owns_recordFor.mpr (.inr ⟨Path.same_self _, hs⟩)⟩
    | false =>
        rw [hs] at hq
        obtain ⟨s, ho⟩ := h.owned q hq
        exact ⟨s, owns_recordFor.mpr (.inl ho)⟩

/-- Records at plain places keep the invariant. -/
theorem Sound.recordAll (h : a.Sound) (source : Path) {outputs : List OutputFile}
    (hp : ∀ o ∈ outputs, o.path.normalize = o.path) : (recordAll source outputs a).Sound := by
  induction outputs generalizing a with
  | nil => exact h
  | cons o outputs ih =>
      exact ih (h.recordFor source (hp o List.mem_cons_self) _)
        fun o' ho' => hp o' (List.mem_cons_of_mem o ho')

/-- Forgetting a source keeps the invariant. -/
theorem Sound.forget (h : a.Sound) (source : Path) : (a.forget source).Sound where
  files := by
    show ((a.dropped source).foldl PathMap.erase a.files).Ordered
    exact List.foldlRecOn _ _ h.files fun m hm p _ => hm.erase p
  folded := by
    show ((a.dropped source).foldl PathMap.erase a.files).Folded
    exact List.foldlRecOn _ _ h.folded fun m hm p _ => hm.erase p
  owners := h.owners.erase source
  owned q hq := by
    -- A place that is left was shared, or the source did not own it.
    by_cases hk : a.Owns source q → a.Shared source q
    · rw [get?_forget_of_kept h.owners hk] at hq
      obtain ⟨s, ho⟩ := h.owned q hq
      by_cases hs : source.same s = true
      · have hso : a.Owns source q := (owns_congr hs (Path.same_self q)).mpr ho
        obtain ⟨r, hr, hrq⟩ := hk hso
        exact ⟨r, owns_forget.mpr ⟨hr, hrq⟩⟩
      · exact ⟨s, owns_forget.mpr ⟨by simpa using hs, ho⟩⟩
    · rw [Classical.not_imp] at hk
      exact absurd (get?_forget_of_owned h.owners hk.1 hk.2) hq

end Accumulator

end Typings
