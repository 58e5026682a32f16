import Typings.Proofs.Json.Number
import Typings.Proofs.Path.Map

/-!
# `Value` — the values that documents have

A document that is read has its whole numbers within 64 bits, and the value of such a document has
its fields in order and nests no deeper than allowed.  Values like that are lawful, and a lawful value
is the value of the document it is written as.

* `Lawful`: the values that a document can have; `Written.Sound`: the documents that are read.
* `sortFields_of_ordered`: fields in order stay as they are.
* `sound_readWritten?`: a document that is read is sound.
* `Written.Sound.lawful`: the value of a sound document is lawful.
* `Lawful.value?_toWritten`: a lawful value is the value of its document.
-/

namespace Typings.Json

/-! ## Values that a document can have -/

/-- Whole numbers are within 64 bits. -/
def Number.InRange : Number → Prop
  | .int i => -(2 ^ 63) ≤ i ∧ i < 2 ^ 64
  | .float _ => True

/-- Fields in the order of their keys, each key once. -/
def Ordered (fields : List (Text × Json)) : Prop :=
  fields.Pairwise fun f g => Text.compare f.1 g.1 = .lt

/-- The values that nest at most `depth` deep, with numbers in range and fields in order. -/
inductive Lawful : Nat → Json → Prop
  | null {d : Nat} : Lawful d .null
  | bool {d : Nat} (b : Bool) : Lawful d (.bool b)
  | number {d : Nat} {n : Number} (h : n.InRange) : Lawful d (.number n)
  | string {d : Nat} (s : Text) : Lawful d (.string s)
  | array {d : Nat} {items : List Json} (h : ∀ v ∈ items, Lawful d v) : Lawful (d + 1) (.array items)
  | object {d : Nat} {fields : List (Text × Json)} (h : ∀ f ∈ fields, Lawful d f.2)
      (hord : Ordered fields) : Lawful (d + 1) (.object fields)

/-- The documents whose numbers are in range. -/
inductive Written.Sound : Written → Prop
  | null : Sound .null
  | bool (b : Bool) : Sound (.bool b)
  | number {n : Option Number} (h : ∀ m ∈ n, m.InRange) : Sound (.number n)
  | string (s : Option Text) : Sound (.string s)
  | array {items : List Written} (h : ∀ w ∈ items, Sound w) : Sound (.array items)
  | object {fields : List (Option Text × Written)} (h : ∀ f ∈ fields, Sound f.2) :
      Sound (.object fields)

/-! ## Fields in order -/

theorem insertField_of_lt {key : Text} {value : Json} {fields : List (Text × Json)}
    (h : ∀ f ∈ fields, Text.compare f.1 key = .lt) :
    insertField key value fields = fields ++ [(key, value)] := by
  induction fields with
  | nil => rfl
  | cons f fields ih =>
      obtain ⟨k, v⟩ := f
      have hgt : Text.compare key k = .gt := by
        rw [@Std.OrientedCmp.eq_swap _ Text.compare _ key k, h (k, v) (List.mem_cons_self ..)]
        rfl
      rw [insertField, hgt]
      show (k, v) :: insertField key value fields = _
      rw [ih (fun f hf => h f (List.mem_cons_of_mem _ hf)), List.cons_append]

theorem mem_insertField {key : Text} {value : Json} {fields : List (Text × Json)} {f : Text × Json}
    (h : f ∈ insertField key value fields) : f = (key, value) ∨ f ∈ fields := by
  induction fields with
  | nil => exact Or.inl (List.mem_singleton.1 h)
  | cons g fields ih =>
      obtain ⟨k, v⟩ := g
      unfold insertField at h
      split at h
      · rcases List.mem_cons.1 h with rfl | h
        · exact Or.inl rfl
        · exact Or.inr h
      · next heq =>
          rcases List.mem_cons.1 h with rfl | h
          · exact Or.inl (by rw [Std.LawfulEqCmp.eq_of_compare heq])
          · exact Or.inr (List.mem_cons_of_mem _ h)
      · rcases List.mem_cons.1 h with rfl | h
        · exact Or.inr (List.mem_cons_self ..)
        · rcases ih h with h | h
          · exact Or.inl h
          · exact Or.inr (List.mem_cons_of_mem _ h)

theorem Ordered.insertField {fields : List (Text × Json)} (h : Ordered fields) (key : Text)
    (value : Json) : Ordered (insertField key value fields) := by
  induction fields with
  | nil => exact List.pairwise_singleton _ _
  | cons g fields ih =>
      obtain ⟨k, v⟩ := g
      obtain ⟨hk, hrest⟩ := List.pairwise_cons.1 h
      unfold Json.insertField
      split
      · next hlt =>
          refine List.pairwise_cons.2 ⟨?_, h⟩
          intro f hf
          rcases List.mem_cons.1 hf with rfl | hf
          · exact hlt
          · exact Std.TransCmp.lt_trans hlt (hk f hf)
      · exact List.pairwise_cons.2 ⟨hk, hrest⟩
      · next hgt =>
          refine List.pairwise_cons.2 ⟨?_, ih hrest⟩
          intro f hf
          rcases mem_insertField hf with rfl | hf
          · exact Std.OrientedCmp.lt_of_gt hgt
          · exact hk f hf

theorem sortFields_concat (fields : List (Text × Json)) (f : Text × Json) :
    sortFields (fields ++ [f]) = insertField f.1 f.2 (sortFields fields) := by
  rw [sortFields, List.foldl_append]
  rfl

theorem ordered_sortFields (fields : List (Text × Json)) : Ordered (sortFields fields) := by
  induction fields using List.reverseRecOn with
  | nil => exact List.Pairwise.nil
  | append_singleton fields f ih =>
      rw [sortFields_concat]
      exact ih.insertField _ _

theorem mem_sortFields {fields : List (Text × Json)} {f : Text × Json} (h : f ∈ sortFields fields) :
    f ∈ fields := by
  induction fields using List.reverseRecOn with
  | nil => exact h
  | append_singleton fields g ih =>
      rw [sortFields_concat] at h
      rcases mem_insertField h with rfl | h
      · exact List.mem_append_right _ (List.mem_singleton_self _)
      · exact List.mem_append_left _ (ih h)

/-- Sorting leaves fields in order as they are. -/
theorem sortFields_of_ordered {fields : List (Text × Json)} (h : Ordered fields) :
    sortFields fields = fields := by
  induction fields using List.reverseRecOn with
  | nil => rfl
  | append_singleton fields f ih =>
      obtain ⟨hfields, -, hlt⟩ := List.pairwise_append.1 h
      rw [sortFields_concat, ih hfields]
      exact insertField_of_lt fun g hg => hlt g hg f (List.mem_singleton_self _)

/-! ## Values of documents -/

namespace Written

theorem exists_of_mem_values? {depth : Nat} {ws : List Written} {vs : List Json}
    (h : values? depth ws = some vs) {v : Json} (hv : v ∈ vs) : ∃ w ∈ ws, value? depth w = some v := by
  induction ws generalizing vs with
  | nil =>
      cases h
      cases hv
  | cons w ws ih =>
      rw [values?] at h
      obtain ⟨u, hu, h⟩ := Option.bind_eq_some_iff.1 h
      obtain ⟨us, hus, h⟩ := Option.bind_eq_some_iff.1 h
      cases h
      rcases List.mem_cons.1 hv with rfl | hv
      · exact ⟨w, List.mem_cons_self .., hu⟩
      · obtain ⟨w', hw', hval⟩ := ih hus hv
        exact ⟨w', List.mem_cons_of_mem _ hw', hval⟩

theorem exists_of_mem_fields? {depth : Nat} {fs : List (Option Text × Written)}
    {vs : List (Text × Json)} (h : fields? depth fs = some vs) {f : Text × Json} (hf : f ∈ vs) :
    ∃ g ∈ fs, value? depth g.2 = some f.2 := by
  induction fs generalizing vs with
  | nil =>
      cases h
      cases hf
  | cons g fs ih =>
      obtain ⟨key, w⟩ := g
      rw [fields?] at h
      obtain ⟨k, hk, h⟩ := Option.bind_eq_some_iff.1 h
      obtain ⟨u, hu, h⟩ := Option.bind_eq_some_iff.1 h
      obtain ⟨us, hus, h⟩ := Option.bind_eq_some_iff.1 h
      cases h
      rcases List.mem_cons.1 hf with rfl | hf
      · exact ⟨(key, w), List.mem_cons_self .., hu⟩
      · obtain ⟨g, hg, hval⟩ := ih hus hf
        exact ⟨g, List.mem_cons_of_mem _ hg, hval⟩

/-- The value of a document is lawful. -/
theorem Sound.lawful {w : Written} (h : w.Sound) {depth : Nat} {v : Json}
    (hv : value? depth w = some v) : Lawful depth v := by
  induction h generalizing depth v with
  | null =>
      cases hv
      exact .null
  | bool b =>
      cases hv
      exact .bool b
  | number h =>
      obtain ⟨n, hn, rfl⟩ := Option.map_eq_some_iff.1 hv
      exact .number (h n hn)
  | string s =>
      obtain ⟨t, -, rfl⟩ := Option.map_eq_some_iff.1 hv
      exact .string t
  | array _ ih =>
      cases depth with
      | zero => cases hv
      | succ d =>
          obtain ⟨vs, hvs, rfl⟩ := Option.map_eq_some_iff.1 hv
          refine .array fun u hu => ?_
          obtain ⟨w, hw, hval⟩ := exists_of_mem_values? hvs hu
          exact ih w hw hval
  | object _ ih =>
      cases depth with
      | zero => cases hv
      | succ d =>
          obtain ⟨vs, hvs, rfl⟩ := Option.map_eq_some_iff.1 hv
          refine .object (fun f hf => ?_) (ordered_sortFields vs)
          obtain ⟨g, hg, hval⟩ := exists_of_mem_fields? hvs (mem_sortFields hf)
          exact ih g hg hval

end Written

/-- **A lawful value is the value of its document.** -/
theorem Lawful.value?_toWritten {depth : Nat} {v : Json} (h : Lawful depth v) :
    v.toWritten.value? depth = some v := by
  induction h with
  | null => rfl
  | bool b => rfl
  | number h => rfl
  | string s => rfl
  | @array d items _ ih =>
      have hitems : ∀ vs : List Json, (∀ v ∈ vs, v.toWritten.value? d = some v) →
          Written.values? d (itemsToWritten vs) = some vs := by
        intro vs hvs
        induction vs with
        | nil => rfl
        | cons v vs ihvs =>
            rw [itemsToWritten, Written.values?, hvs v (List.mem_cons_self ..),
              ihvs fun u hu => hvs u (List.mem_cons_of_mem _ hu)]
            rfl
      show (Written.values? d (itemsToWritten items)).map Json.array = _
      rw [hitems items ih]
      rfl
  | @object d fields _ hord ih =>
      have hfields : ∀ fs : List (Text × Json), (∀ f ∈ fs, f.2.toWritten.value? d = some f.2) →
          Written.fields? d (fieldsToWritten fs) = some fs := by
        intro fs hfs
        induction fs with
        | nil => rfl
        | cons f fs ihfs =>
            obtain ⟨k, v⟩ := f
            rw [fieldsToWritten, Written.fields?, hfs (k, v) (List.mem_cons_self ..),
              ihfs fun g hg => hfs g (List.mem_cons_of_mem _ hg)]
            rfl
      show (Written.fields? d (fieldsToWritten fields)).map ofFields = _
      rw [hfields fields ih]
      show some (Json.object (sortFields fields)) = _
      rw [sortFields_of_ordered hord]

/-! ## Documents that are read -/

theorem NumberParts.inRange_value? {p : NumberParts} {n : Number} (h : p.value? = some n) :
    n.InRange := by
  obtain ⟨taken, -, -, hlt⟩ := absorb_spec p.whole (show 0 < 2 ^ 64 by decide)
  unfold NumberParts.value? at h
  generalize absorb 0 p.whole = r at h hlt
  obtain ⟨significand, leftOver⟩ := r
  have hfloat : ∀ (b : Bool) (f : Float), (signed b f).InRange := fun _ _ => trivial
  simp only at h hlt
  split at h
  · split at h
    · cases h
      exact ⟨by omega, by omega⟩
    · split at h
      · next hrange =>
          cases h
          have hle : significand ≤ 2 ^ 63 := of_decide_eq_true (Bool.and_eq_true_iff.1 hrange).2
          exact ⟨by omega, by omega⟩
      · cases h
        exact hfloat _ _
  · split at h
    · obtain ⟨f, -, rfl⟩ := Option.map_eq_some_iff.1 h
      exact hfloat _ _
    · split at h
      · split at h
        · cases h
        · cases h
          exact hfloat _ _
      · obtain ⟨f, -, rfl⟩ := Option.map_eq_some_iff.1 h
        exact hfloat _ _

theorem inRange_readNumber? {negative : Bool} {t rest : Text} {n : Option Number}
    (h : readNumber? negative t = some (n, rest)) : ∀ m ∈ n, m.InRange := by
  unfold readNumber? at h
  split at h
  · cases h
  · cases h
  · obtain ⟨r, -, h⟩ := Option.bind_eq_some_iff.1 h
    obtain ⟨s, -, h⟩ := Option.bind_eq_some_iff.1 h
    cases h
    exact fun m hm => NumberParts.inRange_value? hm

/-- All that is read with the given fuel is sound. -/
structure SoundAt (fuel : Nat) : Prop where
  node : ∀ {t w rest}, readNode? fuel t = some (w, rest) → w.Sound
  items : ∀ {t items rest}, readItems? fuel t = some (items, rest) → ∀ w ∈ items, w.Sound
  fields : ∀ {t fields rest}, readFields? fuel t = some (fields, rest) → ∀ f ∈ fields, f.2.Sound

theorem SoundAt.node_succ {fuel : Nat} (h : SoundAt fuel) {t rest : Text} {w : Written}
    (hread : readNode? (fuel + 1) t = some (w, rest)) : w.Sound := by
  rw [readNode?] at hread
  split at hread
  · obtain ⟨r, -, hr⟩ := Option.map_eq_some_iff.1 hread
    cases hr
    exact .string _
  · split at hread
    · cases hread
      exact .array fun _ hw => nomatch hw
    · obtain ⟨r, hitems, hr⟩ := Option.map_eq_some_iff.1 hread
      cases hr
      exact .array (h.items hitems)
  · split at hread
    · cases hread
      exact .object fun _ hf => nomatch hf
    · obtain ⟨r, hfields, hr⟩ := Option.map_eq_some_iff.1 hread
      cases hr
      exact .object (h.fields hfields)
  · obtain ⟨r, hnumber, hr⟩ := Option.map_eq_some_iff.1 hread
    cases hr
    exact .number (inRange_readNumber? hnumber)
  · cases hread
    exact .null
  · cases hread
    exact .bool true
  · cases hread
    exact .bool false
  · obtain ⟨r, hnumber, hr⟩ := Option.map_eq_some_iff.1 hread
    cases hr
    exact .number (inRange_readNumber? hnumber)

theorem SoundAt.items_succ {fuel : Nat} (h : SoundAt fuel) {t rest : Text} {items : List Written}
    (hread : readItems? (fuel + 1) t = some (items, rest)) : ∀ w ∈ items, w.Sound := by
  rw [readItems?] at hread
  split at hread
  · cases hread
  · next hnode =>
      split at hread
      · obtain ⟨r, hmore, hr⟩ := Option.map_eq_some_iff.1 hread
        cases hr
        exact List.forall_mem_cons.2 ⟨h.node hnode, h.items hmore⟩
      · cases hread
        exact List.forall_mem_singleton.2 (h.node hnode)
      · cases hread

theorem SoundAt.fields_succ {fuel : Nat} (h : SoundAt fuel) {t rest : Text}
    {fields : List (Option Text × Written)}
    (hread : readFields? (fuel + 1) t = some (fields, rest)) : ∀ f ∈ fields, f.2.Sound := by
  rw [readFields?] at hread
  split at hread
  · split at hread
    · cases hread
    · split at hread
      · split at hread
        · cases hread
        · next hnode =>
            split at hread
            · obtain ⟨r, hmore, hr⟩ := Option.map_eq_some_iff.1 hread
              cases hr
              exact List.forall_mem_cons.2 ⟨h.node hnode, h.fields hmore⟩
            · cases hread
              exact List.forall_mem_singleton.2 (h.node hnode)
            · cases hread
      · cases hread
  · cases hread

theorem soundAt (fuel : Nat) : SoundAt fuel := by
  induction fuel with
  | zero =>
      refine ⟨?_, ?_, ?_⟩
      · intro t w rest h
        cases h
      · intro t items rest h
        cases h
      · intro t fields rest h
        cases h
  | succ fuel ih => exact ⟨ih.node_succ, ih.items_succ, ih.fields_succ⟩

/-- The numbers of a document that was read are in range. -/
theorem sound_readWritten? {t : Text} {w : Written} (h : readWritten? t = some w) : w.Sound := by
  unfold readWritten? at h
  split at h
  · next hread =>
      split at h
      · cases h
        exact (soundAt _).node hread
      · cases h
  · cases h

end Typings.Json
