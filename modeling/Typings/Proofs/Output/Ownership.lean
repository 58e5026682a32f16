import Typings.Proofs.Output.Accumulator

/-!
# `Ownership` — recorded outputs by their history

Sources record outputs, share them, are forgotten and record again.  Who owns a place is a matter of the
history alone: the sources that have recorded it since they were last forgotten.  A place is stored as
long as one of them is left, with the content that was recorded there last.

There is one text for each place, and it is the last one.  When its source is forgotten while the place
belongs to another source too, the place stays as it is; so it has the text of a source that is gone, until
it is recorded again.  The text that would stand is that of the newest recording by a source that has not been
forgotten since.

* `Change`, `replay`: recording and forgetting, and what a history of them leaves.
* `RecordedSince`: a source has recorded a place since it was last forgotten; `owns_replay`.
* `Consistent`: the two maps are in order, and what is stored is what is owned.
* `Releases`, `Lists`: what forgetting a source gives back and takes away, and how outputs are listed.
* `ownership`: all of it, for every history.
* `Recording`, `recordings`, `standing`: all recordings, and those whose source has not been forgotten since.
* `newest?`: the newest recording at a place.
* `recordedSince_iff_standing`, `newest?_standing`: what stands, by the history.
* `standing_text_iff`: when a stored place has the text that stands; `forgotten_text_stays`: it need not.
-/

namespace Typings

namespace Accumulator

/-! ## Histories -/

/-- A change to the recorded outputs. -/
inductive Change where
  | recordFor (source place : Path) (content : Text)
  | forget (source : Path)
deriving DecidableEq, Repr

/-- The outputs after a change. -/
def Change.apply : Change → Accumulator → Accumulator
  | .recordFor source place content, a => a.recordFor source place content
  | .forget source, a => a.forget source

/-- What a history of changes leaves. -/
def replay (changes : List Change) : Accumulator := changes.foldl (fun a c => c.apply a) {}

theorem replay_concat (changes : List Change) (c : Change) :
    replay (changes ++ [c]) = c.apply (replay changes) := by
  rw [replay, List.foldl_append]
  rfl

/-- The source has recorded an output at the place, and has not been forgotten since. -/
def RecordedSince (changes : List Change) (source place : Path) : Prop :=
  ∃ before s p t later, changes = before ++ .recordFor s p t :: later ∧ s.same source = true ∧
    p.same place = true ∧ ∀ s', .forget s' ∈ later → s'.same source = false

theorem not_recordedSince_nil (source place : Path) : ¬ RecordedSince [] source place := by
  rintro ⟨before, s, p, t, later, hsplit, -⟩
  exact absurd hsplit (by simp)

/-- The last change is in front of the history that is left, or it is the one that is looked for. -/
theorem concat_eq_append_cons {changes before later : List Change} {c d : Change} :
    changes ++ [c] = before ++ d :: later ↔
      later = [] ∧ changes = before ∧ c = d ∨
        ∃ rest, later = rest ++ [c] ∧ changes = before ++ d :: rest := by
  constructor
  · intro h
    rcases later.eq_nil_or_concat with rfl | ⟨rest, e, rfl⟩
    · obtain ⟨hfront, hlast⟩ := List.append_inj' h rfl
      exact .inl ⟨rfl, hfront, List.singleton_inj.mp hlast⟩
    · rw [List.concat_eq_append, ← List.cons_append, ← List.append_assoc] at h
      obtain ⟨hfront, hlast⟩ := List.append_inj' h rfl
      obtain rfl := List.singleton_inj.mp hlast
      exact .inr ⟨rest, List.concat_eq_append .., hfront⟩
  · rintro (⟨rfl, rfl, rfl⟩ | ⟨rest, rfl, rfl⟩) <;> simp

theorem recordedSince_recordFor {changes : List Change} {s p source place : Path} {t : Text} :
    RecordedSince (changes ++ [.recordFor s p t]) source place ↔
      RecordedSince changes source place ∨ s.same source = true ∧ p.same place = true := by
  constructor
  · rintro ⟨before, s', p', t', later, hsplit, hs, hp, hlater⟩
    rcases concat_eq_append_cons.mp hsplit with ⟨-, -, hlast⟩ | ⟨rest, rfl, rfl⟩
    · obtain ⟨rfl, rfl, -⟩ := Change.recordFor.inj hlast
      exact .inr ⟨hs, hp⟩
    · exact .inl ⟨before, s', p', t', rest, rfl, hs, hp, fun r hr => hlater r (List.mem_append_left _ hr)⟩
  · rintro (⟨before, s', p', t', later, rfl, hs, hp, hlater⟩ | ⟨hs, hp⟩)
    · refine ⟨before, s', p', t', later ++ [.recordFor s p t], by simp, hs, hp, fun r hr => ?_⟩
      exact hlater r ((List.mem_append.mp hr).resolve_right (by simp))
    · exact ⟨changes, s, p, t, [], rfl, hs, hp, by simp⟩

theorem recordedSince_forget {changes : List Change} {s source place : Path} :
    RecordedSince (changes ++ [.forget s]) source place ↔
      s.same source = false ∧ RecordedSince changes source place := by
  constructor
  · rintro ⟨before, s', p', t', later, hsplit, hs, hp, hlater⟩
    rcases concat_eq_append_cons.mp hsplit with ⟨-, -, hlast⟩ | ⟨rest, rfl, rfl⟩
    · exact absurd hlast (by simp)
    · exact ⟨hlater s (by simp), before, s', p', t', rest, rfl, hs, hp,
        fun r hr => hlater r (List.mem_append_left _ hr)⟩
  · rintro ⟨hnot, before, s', p', t', later, rfl, hs, hp, hlater⟩
    refine ⟨before, s', p', t', later ++ [.forget s], by simp, hs, hp, fun r hr => ?_⟩
    rcases List.mem_append.mp hr with hr | hr
    · exact hlater r hr
    · obtain rfl := Change.forget.inj (List.mem_singleton.mp hr)
      exact hnot

/-- **Ownership is a matter of the history**: a source owns what it has recorded since it was last
    forgotten. -/
theorem owns_replay {changes : List Change} {source place : Path} :
    (replay changes).Owns source place ↔ RecordedSince changes source place := by
  induction changes using List.reverseRecOn with
  | nil =>
      exact iff_of_false (not_owns_empty source place) (not_recordedSince_nil source place)
  | append_singleton changes c ih =>
      rw [replay_concat]
      cases c with
      | recordFor s p t => rw [Change.apply, owns_recordFor, recordedSince_recordFor, ih]
      | forget s => rw [Change.apply, owns_forget, recordedSince_forget, ih]

/-! ## What is stored is what is owned -/

/-- The two maps are in order, and so are the places of each source; what is stored is what is owned. -/
structure Consistent (a : Accumulator) : Prop where
  files : a.files.Ordered
  owners : a.owners.Ordered
  owned : ∀ source, (a.owned source).Ordered
  stored : ∀ q, a.files.contains q = true ↔ ∃ source, a.Owns source q

theorem consistent_empty : Consistent {} where
  files := PathMap.ordered_empty
  owners := PathMap.ordered_empty
  owned _ := PathMap.ordered_empty
  stored q := iff_of_false Bool.false_ne_true fun ⟨source, h⟩ => not_owns_empty source q h

section

variable {a : Accumulator} (h : a.Consistent)

include h

theorem Consistent.recordFor (source place : Path) (t : Text) : (a.recordFor source place t).Consistent where
  files := h.files.insert _ _
  owners := h.owners.insert _ _
  owned s := by
    rw [Accumulator.owned, Accumulator.recordFor, PathMap.get?_insert]
    split
    · exact (h.owned source).insert _ _
    · exact h.owned s
  stored q := by
    rw [Accumulator.recordFor, PathMap.contains_insert, Bool.or_eq_true, h.stored]
    constructor
    · rintro (hq | ⟨s, hs⟩)
      · exact ⟨source, owns_recordFor.mpr (.inr ⟨Path.same_self source, hq⟩)⟩
      · exact ⟨s, owns_recordFor.mpr (.inl hs)⟩
    · rintro ⟨s, hs⟩
      exact (owns_recordFor.mp hs).symm.imp And.right fun ho => ⟨s, ho⟩

theorem Consistent.forget (source : Path) : (a.forget source).Consistent where
  files := by
    show ((a.dropped source).foldl PathMap.erase a.files).Ordered
    exact List.foldlRecOn _ _ h.files fun m hm p _ => hm.erase p
  owners := h.owners.erase source
  owned s := by
    rw [Accumulator.owned, Accumulator.forget, PathMap.get?_erase]
    split
    · exact PathMap.ordered_empty
    · exact h.owned s
  stored q := by
    simp only [owns_forget]
    by_cases hk : a.Owns source q → a.Shared source q
    · -- A place that is kept was shared, or the source did not own it.
      rw [PathMap.contains_eq, get?_forget_of_kept h.owners hk, ← PathMap.contains_eq, h.stored]
      constructor
      · rintro ⟨s, hs⟩
        cases hsame : source.same s with
        | true => exact hk ((owns_congr hsame (Path.same_self q)).mpr hs)
        | false => exact ⟨s, hsame, hs⟩
      · rintro ⟨s, -, hs⟩
        exact ⟨s, hs⟩
    · rw [Classical.not_imp] at hk
      rw [PathMap.contains_eq, get?_forget_of_owned h.owners hk.1 hk.2]
      exact iff_of_false Bool.false_ne_true hk.2

/-- A place is given back when a source is forgotten that alone owns it. -/
theorem Consistent.exists_mem_dropped_iff {source q : Path} :
    (∃ p ∈ a.dropped source, p.same q = true) ↔ a.Owns source q ∧ ¬ a.Shared source q := by
  constructor
  · rintro ⟨p, hp, hpq⟩
    obtain ⟨howns, hshared, -⟩ := mem_dropped h.owners hp
    refine ⟨(owns_congr (Path.same_self source) hpq).mp howns, ?_⟩
    rintro ⟨s, hs, ho⟩
    exact hshared ⟨s, hs, (owns_congr (Path.same_self s) hpq).mpr ho⟩
  · rintro ⟨howns, hshared⟩
    exact exists_mem_dropped h.owners howns hshared ((h.stored q).mpr ⟨source, howns⟩)

end

theorem consistent_replay (changes : List Change) : (replay changes).Consistent := by
  induction changes using List.reverseRecOn with
  | nil => exact consistent_empty
  | append_singleton changes c ih =>
      rw [replay_concat]
      cases c with
      | recordFor s p t => exact ih.recordFor s p t
      | forget s => exact ih.forget s

/-! ## Contents -/

/-- The output that a change records. -/
def Change.output? : Change → Option OutputFile
  | .recordFor _ place content => some ⟨place, content⟩
  | .forget _ => none

/-- The outputs that were ever recorded, in order. -/
def recorded (changes : List Change) : List OutputFile := changes.filterMap Change.output?

/-- **A stored place has the content that was recorded there last.** -/
theorem get?_replay {changes : List Change} {q : Path} (h : (replay changes).files.contains q = true) :
    (replay changes).get? q = lastAt? (recorded changes) q := by
  induction changes using List.reverseRecOn with
  | nil => exact absurd h Bool.false_ne_true
  | append_singleton changes c ih =>
      rw [recorded, List.filterMap_append, ← recorded]
      rw [replay_concat] at h ⊢
      cases c with
      | recordFor s p t =>
          rw [Change.apply, Accumulator.recordFor, PathMap.contains_insert] at h
          rw [Change.apply, Accumulator.get?, get?_recordFor]
          show _ = lastAt? (recorded changes ++ [⟨p, t⟩]) q
          rw [lastAt?_concat]
          cases hp : p.same q with
          | true => rfl
          | false =>
              rw [hp, Bool.false_or] at h
              exact ih h
      | forget s =>
          show _ = lastAt? (recorded changes ++ []) q
          rw [List.append_nil]
          have howners := (consistent_replay changes).owners
          have hkept : (replay changes).Owns s q → (replay changes).Shared s q := by
            intro howns
            by_contra hshared
            rw [Change.apply, PathMap.contains_eq, get?_forget_of_owned howners howns hshared] at h
            exact Bool.false_ne_true h
          rw [Change.apply, PathMap.contains_eq, get?_forget_of_kept howners hkept,
            ← PathMap.contains_eq] at h
          rw [Change.apply, Accumulator.get?, get?_forget_of_kept howners hkept]
          exact ih h

/-! ## What forgetting gives back, and what is listed -/

/-- Forgetting the source gives back, in the order of places, what it has recorded since it was last
    forgotten and no other source owns; this is taken away, and no other content changes. -/
structure Releases (changes : List Change) (source : Path) : Prop where
  ordered : ((replay changes).dropped source).Pairwise fun p q => p.compare q = .lt
  exact : ∀ q, (∃ p ∈ (replay changes).dropped source, p.same q = true) ↔
    RecordedSince changes source q ∧ ∀ other, RecordedSince changes other q → source.same other = true
  rest : ∀ q, (replay (changes ++ [.forget source])).get? q =
    if ∃ p ∈ (replay changes).dropped source, p.same q = true then none else (replay changes).get? q

theorem releases_replay (changes : List Change) (source : Path) : Releases changes source := by
  have h := consistent_replay changes
  refine ⟨?_, fun q => ?_, fun q => ?_⟩
  · have hkeys : ((replay changes).owned source).keys.Pairwise fun p q => p.compare q = .lt :=
      List.pairwise_map.mpr (h.owned source)
    exact hkeys.filter _
  · rw [h.exists_mem_dropped_iff, owns_replay]
    refine and_congr_right fun _ => ⟨fun hshared other ho => ?_, fun halone => ?_⟩
    · by_contra hsame
      exact hshared ⟨other, by simpa using hsame, owns_replay.mpr ho⟩
    · rintro ⟨other, hsame, ho⟩
      rw [halone other (owns_replay.mp ho)] at hsame
      exact absurd hsame (by decide)
  · rw [replay_concat, Change.apply, Accumulator.get?, Accumulator.forget, get?_foldl_erase]
    simp only [List.any_eq_true]
    rfl

/-- All stored outputs are listed, each once, in the order of their places. -/
structure Lists (a : Accumulator) : Prop where
  ordered : a.snapshot.Pairwise fun o o' => o.path.compare o'.path = .lt
  content : ∀ q t, a.get? q = some t ↔ ∃ o ∈ a.snapshot, o.path.same q = true ∧ o.content = t

theorem Consistent.lists {a : Accumulator} (h : a.Consistent) : a.Lists where
  ordered := List.pairwise_map.mpr h.files
  content q t := by
    constructor
    · intro hget
      obtain ⟨p, hp, hs⟩ := PathMap.mem_of_get? hget
      exact ⟨⟨p, t⟩, List.mem_map_of_mem (f := fun e : Path × Text => (⟨e.1, e.2⟩ : OutputFile)) hp, hs, rfl⟩
    · rintro ⟨o, ho, hs, rfl⟩
      obtain ⟨⟨p, c⟩, he, rfl⟩ := List.mem_map.mp ho
      rw [Accumulator.get?, ← PathMap.get?_congr hs]
      exact PathMap.get?_of_mem h.files he

/-- **Outputs belong to those who recorded them.** After any history a place is stored if and only if a
    source has recorded it since it was last forgotten, and holds what was recorded there last.  Forgetting
    a source gives back and takes away exactly the places that it alone has recorded since it was last
    forgotten; and the listing has every stored place once, in order. -/
theorem ownership (changes : List Change) :
    (∀ q, (replay changes).files.contains q = true ↔ ∃ source, RecordedSince changes source q) ∧
      (∀ q, (replay changes).files.contains q = true →
        (replay changes).get? q = lastAt? (recorded changes) q) ∧
      (∀ source, Releases changes source) ∧ (replay changes).Lists := by
  refine ⟨fun q => ?_, fun q => get?_replay, releases_replay changes, (consistent_replay changes).lists⟩
  rw [(consistent_replay changes).stored]
  exact exists_congr fun source => owns_replay

/-- A shared output outlives the first of its owners, and is given back with the second. -/
example :
    let shared : List Change := [.recordFor "/p/a.vue" "/p/a.d.ts" "vue", .recordFor "/p/a.ts" "/p/a.d.ts" "ts"]
    (replay shared).dropped "/p/a.vue" = [] ∧
      (replay (shared ++ [.forget "/p/a.vue"])).get? "/p/./a.d.ts" = some "ts".toList ∧
      (replay (shared ++ [.forget "/p/a.vue"])).dropped "/p/a.ts" = [(⟨"/p/a.d.ts"⟩ : Path)] := by
  decide +kernel

end Accumulator

end Typings

namespace Typings.Accumulator

variable {changes : List Change} {source q : Path}

/-! ## Recordings -/

/-- A file with the source that recorded it. -/
structure Recording where
  source : Path
  file : OutputFile
deriving DecidableEq, Repr

/-- What a change records. -/
def Change.recording? : Change → Option Recording
  | .recordFor source place content => some ⟨source, place, content⟩
  | .forget _ => none

/-- All recordings, in order. -/
def recordings (changes : List Change) : List Recording := changes.filterMap Change.recording?

/-- The recordings that stand after a change. -/
def stand (standing : List Recording) : Change → List Recording
  | .recordFor source place content => standing ++ [⟨source, place, content⟩]
  | .forget source => standing.filter fun r => !source.same r.source

/-- The recordings whose source has not been forgotten since, in order. -/
def standing (changes : List Change) : List Recording := changes.foldl stand []

theorem recordings_concat (changes : List Change) (c : Change) :
    recordings (changes ++ [c]) = recordings changes ++ c.recording?.toList := by
  rw [recordings, List.filterMap_append]
  cases c <;> rfl

theorem standing_concat (changes : List Change) (c : Change) :
    standing (changes ++ [c]) = stand (standing changes) c := by
  rw [standing, List.foldl_append]
  rfl

/-- The newest of some recordings at a place. -/
def newest? (rs : List Recording) (q : Path) : Option Recording :=
  rs.reverse.find? fun r => r.file.path.same q

theorem newest?_concat (rs : List Recording) (r : Recording) (q : Path) :
    newest? (rs ++ [r]) q = if r.file.path.same q then some r else newest? rs q := by
  rw [newest?, List.reverse_append]
  cases h : r.file.path.same q <;> simp [h, newest?]

/-- The newest recording stays the newest as long as it is not taken away. -/
theorem newest?_filter {rs : List Recording} {r : Recording} (h : newest? rs q = some r)
    {keep : Recording → Bool} (hr : keep r = true) : newest? (rs.filter keep) q = some r := by
  induction rs using List.reverseRecOn with
  | nil => exact nomatch h
  | append_singleton rs r' ih =>
      rw [newest?_concat] at h
      rw [List.filter_append]
      by_cases hs : r'.file.path.same q = true
      · rw [if_pos hs] at h
        obtain rfl := Option.some.inj h
        rw [List.filter_cons_of_pos hr, List.filter_nil, newest?_concat, if_pos hs]
      · rw [if_neg hs] at h
        by_cases hk : keep r' = true
        · rw [List.filter_cons_of_pos hk, List.filter_nil, newest?_concat, if_neg hs, ih h]
        · rw [List.filter_cons_of_neg hk, List.filter_nil, List.append_nil, ih h]

theorem newest?_of_mem {rs : List Recording} {r : Recording} (h : r ∈ rs) (hs : r.file.path.same q = true) :
    ∃ r', newest? rs q = some r' :=
  Option.isSome_iff_exists.mp (List.find?_isSome.mpr ⟨r, List.mem_reverse.mpr h, hs⟩)

/-- What is recorded last at a place is the content of the newest recording. -/
theorem lastAt?_recorded (changes : List Change) (q : Path) :
    lastAt? (recorded changes) q = (newest? (recordings changes) q).map (·.file.content) := by
  induction changes using List.reverseRecOn with
  | nil => rfl
  | append_singleton changes c ih =>
      rw [recorded, List.filterMap_append, ← recorded, recordings_concat]
      cases c with
      | recordFor s p t =>
          show lastAt? (recorded changes ++ [⟨p, t⟩]) q
            = (newest? (recordings changes ++ [⟨s, p, t⟩]) q).map _
          rw [lastAt?_concat, newest?_concat, ih]
          split <;> rfl
      | forget s =>
          show lastAt? (recorded changes ++ []) q = (newest? (recordings changes ++ []) q).map _
          rw [List.append_nil, List.append_nil, ih]

/-! ## What stands, by the history -/

/-- A source has recorded a place since it was last forgotten if one of its recordings there stands. -/
theorem recordedSince_iff_standing :
    RecordedSince changes source q ↔
      ∃ r ∈ standing changes, r.source.same source = true ∧ r.file.path.same q = true := by
  induction changes using List.reverseRecOn with
  | nil => exact iff_of_false (not_recordedSince_nil source q) (by simp [standing])
  | append_singleton changes c ih =>
      rw [standing_concat]
      cases c with
      | recordFor s p t =>
          rw [recordedSince_recordFor, ih, stand]
          simp only [List.mem_append, List.mem_singleton, or_and_right, exists_or, exists_eq_left]
      | forget s =>
          rw [recordedSince_forget, ih, stand]
          simp only [List.mem_filter, Bool.not_eq_true']
          constructor
          · rintro ⟨hnot, r, hr, hs, hq⟩
            refine ⟨r, ⟨hr, ?_⟩, hs, hq⟩
            rw [Path.same_comm, Path.same_congr hs, Path.same_comm]
            exact hnot
          · rintro ⟨r, ⟨hr, hnot⟩, hs, hq⟩
            refine ⟨?_, r, hr, hs, hq⟩
            rw [Path.same_comm, ← Path.same_congr hs, Path.same_comm]
            exact hnot

/-- The newest recording at a place stands if its source has recorded the place since it was last
    forgotten. -/
theorem newest?_standing {last : Recording} (hlast : newest? (recordings changes) q = some last)
    (hsince : RecordedSince changes last.source q) : newest? (standing changes) q = some last := by
  induction changes using List.reverseRecOn with
  | nil => exact nomatch hlast
  | append_singleton changes c ih =>
      rw [recordings_concat] at hlast
      rw [standing_concat]
      cases c with
      | recordFor s p t =>
          rw [Change.recording?, Option.toList_some, newest?_concat] at hlast
          rw [stand, newest?_concat]
          split at hlast
          · next hp => rw [if_pos hp, hlast]
          · next hp =>
              -- The source has recorded this place before, for the last change is at another one.
              have hbefore := (recordedSince_recordFor.mp hsince).resolve_right fun h => hp h.2
              rw [if_neg hp, ih hlast hbefore]
      | forget s =>
          rw [Change.recording?, Option.toList_none, List.append_nil] at hlast
          obtain ⟨hnot, hbefore⟩ := recordedSince_forget.mp hsince
          exact newest?_filter (ih hlast hbefore) (by rw [hnot]; rfl)

/-- **Whose text a stored place has.**  It has the text of its newest recording.  This is the text that stands
    if and only if the source of that recording has not been forgotten since, or the texts happen to agree. -/
theorem standing_text_iff (h : (replay changes).files.contains q = true) :
    ∃ last stands, newest? (recordings changes) q = some last ∧
      newest? (standing changes) q = some stands ∧
      (replay changes).get? q = some last.file.content ∧ RecordedSince changes stands.source q ∧
      (RecordedSince changes last.source q → stands = last) ∧
      (¬ RecordedSince changes last.source q → last.source.same stands.source = false) ∧
      ((replay changes).get? q = some stands.file.content ↔
        RecordedSince changes last.source q ∨ last.file.content = stands.file.content) := by
  have hget := get?_replay h
  rw [lastAt?_recorded] at hget
  obtain ⟨owner, howner⟩ := ((consistent_replay changes).stored q).mp h
  obtain ⟨r, hr, -, hrq⟩ := recordedSince_iff_standing.mp (owns_replay.mp howner)
  obtain ⟨stands, hstands⟩ := newest?_of_mem hr hrq
  have hmem := List.mem_of_find?_eq_some hstands
  have hq : stands.file.path.same q = true := by
    have hfound := List.find?_some (p := fun r : Recording => r.file.path.same q) hstands
    exact hfound
  have hsince : RecordedSince changes stands.source q :=
    recordedSince_iff_standing.mpr ⟨stands, List.mem_reverse.mp hmem, Path.same_self _, hq⟩
  cases hlast : newest? (recordings changes) q with
  | none =>
      rw [hlast, Option.map_none] at hget
      rw [PathMap.contains_eq] at h
      have hnone : (replay changes).files.get? q = none := hget
      rw [hnone] at h
      exact nomatch h
  | some last =>
      rw [hlast, Option.map_some] at hget
      have hown (hs : RecordedSince changes last.source q) : stands = last := by
        rw [newest?_standing hlast hs] at hstands
        exact (Option.some.inj hstands).symm
      refine ⟨last, stands, rfl, hstands, hget, hsince, hown, fun hgone => ?_, ?_⟩
      · refine Bool.eq_false_iff.mpr fun hsame => hgone (owns_replay.mp ?_)
        exact (owns_congr hsame (Path.same_self q)).mpr (owns_replay.mpr hsince)
      · rw [hget, Option.some_inj]
        constructor
        · exact .inr
        · rintro (hs | heq)
          · rw [hown hs]
          · exact heq

/-- A shared output whose last writer is forgotten. -/
def orphaned : List Change :=
  [.recordFor "/p/src/App.vue.ts" "/p/src/App.vue.d.ts" "ts",
    .recordFor "/p/src/App.vue" "/p/src/App.vue.d.ts" "vue", .forget "/p/src/App.vue"]

theorem standing_text_iff_orphaned :
    (replay orphaned).files.contains "/p/src/App.vue.d.ts" = true ∧
      ∃ last stands, newest? (recordings orphaned) "/p/src/App.vue.d.ts" = some last ∧
        newest? (standing orphaned) "/p/src/App.vue.d.ts" = some stands ∧
        (replay orphaned).get? "/p/src/App.vue.d.ts" = some last.file.content ∧
        RecordedSince orphaned stands.source "/p/src/App.vue.d.ts" ∧
        (RecordedSince orphaned last.source "/p/src/App.vue.d.ts" → stands = last) ∧
        (¬ RecordedSince orphaned last.source "/p/src/App.vue.d.ts" →
          last.source.same stands.source = false) ∧
        ((replay orphaned).get? "/p/src/App.vue.d.ts" = some stands.file.content ↔
          RecordedSince orphaned last.source "/p/src/App.vue.d.ts" ∨
            last.file.content = stands.file.content) := by
  have h : (replay orphaned).files.contains "/p/src/App.vue.d.ts" = true := by decide +kernel
  exact ⟨h, standing_text_iff h⟩

/-- The text of a source stays when the source is forgotten, and the one that stands is lost. -/
theorem forgotten_text_stays :
    newest? (standing orphaned) "/p/src/App.vue.d.ts"
        = some ⟨"/p/src/App.vue.ts", "/p/src/App.vue.d.ts", "ts"⟩ ∧
      (replay orphaned).get? "/p/src/App.vue.d.ts" = some "vue".toList := by
  decide +kernel

end Typings.Accumulator
