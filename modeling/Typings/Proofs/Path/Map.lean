import Typings.Path.Map
import Typings.Proofs.Path.Normal
import Mathlib.Data.List.Induction

/-!
# `Map` — maps keyed by places

Places are ordered lexicographically, component by component, so the order is total and only
spellings of one place compare equal.  A map that is built with `insert` and `erase` stays in order
(`Ordered`), and then it is what its lookups say.

* `Path.compare_eq_eq`: equal in the order means the same place; `Path.compare` is transitive.
* `PathMap.Ordered`: the entries are in order, one for each place.
* `get?_insert`, `get?_erase`, `contains_insert`, `contains_erase`: what the operations do, place by place.
* `PathMap.ext_get?`: maps in order with folded keys and equal lookups are equal.
-/

namespace Typings

open Std

/-! ## The order of places -/

/-- Texts are compared character by character, as lists are. -/
theorem Text.compare_eq (s t : Text) : s.compare t = List.compareLex Ord.compare s t := by
  induction s generalizing t with
  | nil => cases t <;> rfl
  | cons c s ih =>
      cases t with
      | nil => rfl
      | cons d t =>
          rw [Text.compare, List.compareLex_cons_cons, ih]
          show _ = (compareOfLessAndEq c d).then _
          unfold compareOfLessAndEq
          by_cases hlt : c < d
          · rw [if_pos hlt, if_pos hlt]
            rfl
          · rw [if_neg hlt, if_neg hlt]
            by_cases heq : c = d
            · rw [if_pos heq, heq, if_neg (Char.lt_irrefl d)]
              rfl
            · have hgt : d < c :=
                Char.not_le.mp fun hle => heq (Char.le_antisymm hle (Char.not_lt.mp hlt))
              rw [if_neg heq, if_pos hgt]
              rfl

instance : TransCmp Text.compare := by
  rw [show Text.compare = List.compareLex Ord.compare from funext₂ Text.compare_eq]
  infer_instance

instance : LawfulEqCmp Text.compare := by
  rw [show Text.compare = List.compareLex Ord.compare from funext₂ Text.compare_eq]
  infer_instance

/-- An order seen through a function. -/
theorem transCmp_comap {α β : Type} {cmp : β → β → Ordering} [TransCmp cmp] (f : α → β) :
    TransCmp fun a b => cmp (f a) (f b) where
  eq_swap := OrientedCmp.eq_swap
  isLE_trans := TransCmp.isLE_trans

namespace Component

/-- The spelling of a name; nothing for other components. -/
def nameText : Component → Text
  | .name t => t
  | _ => []

/-- Components are compared by their kind, and names by their texts. -/
theorem compare_eq (a b : Component) :
    a.compare b
      = compareLex (fun a b => Ord.compare a.rank b.rank)
          (fun a b => Text.compare a.nameText b.nameText) a b := by
  cases a <;> cases b <;> rfl

instance : TransCmp Component.compare := by
  have _ : TransCmp fun a b : Component => Ord.compare a.rank b.rank := transCmp_comap rank
  have _ : TransCmp fun a b : Component => Text.compare a.nameText b.nameText :=
    transCmp_comap nameText
  rw [funext₂ compare_eq]
  infer_instance

/-- Only equal components compare as equal, so the order is one of components, not of kinds. -/
theorem eq_of_compare {a b : Component} (h : a.compare b = .eq) : a = b := by
  rw [compare_eq, compareLex_eq_eq] at h
  have hrank : a.rank = b.rank := LawfulEqCmp.eq_of_compare h.1
  have htext : a.nameText = b.nameText := LawfulEqCmp.eq_of_compare h.2
  cases a <;> cases b <;> simp_all [rank, nameText]

instance : LawfulEqCmp Component.compare where
  eq_of_compare := eq_of_compare

end Component

namespace Path

/-- Paths are compared component by component. -/
theorem compare_eq (p q : Path) :
    p.compare q = List.compareLex Component.compare p.components q.components := by
  have h (s t : List Component) : compare.go s t = List.compareLex Component.compare s t := by
    induction s generalizing t with
    | nil => cases t <;> rfl
    | cons a s ih =>
        cases t with
        | nil => rfl
        | cons b t => rw [compare.go, List.compareLex_cons_cons, ih]
  exact h _ _

instance : TransCmp Path.compare := by
  rw [funext₂ compare_eq]
  exact transCmp_comap components

/-- Paths are the same if they have the same components, however they are spelled. -/
theorem same_iff {p q : Path} : p.same q = true ↔ p.components = q.components := beq_iff_eq

/-- Only spellings of one place compare equal. -/
theorem compare_eq_eq {p q : Path} : p.compare q = .eq ↔ p.same q = true := by
  rw [compare_eq, same_iff]
  exact LawfulEqCmp.compare_eq_iff_eq

/-- A path is the same as itself. -/
@[simp] theorem same_self (p : Path) : p.same p = true := same_iff.mpr rfl

/-- Being the same does not depend on which path comes first. -/
theorem same_comm (p q : Path) : p.same q = q.same p := by
  rw [Bool.eq_iff_iff, same_iff, same_iff]
  exact eq_comm

/-- Of two paths that are the same, one will do where the other does. -/
theorem same_congr {p q : Path} (h : p.same q = true) (r : Path) : p.same r = q.same r := by
  rw [Bool.eq_iff_iff, same_iff, same_iff, same_iff.mp h]

/-- A folded path is the plain spelling of its components. -/
theorem eq_of_same {p q : Path} (hp : p.normalize = p) (hq : q.normalize = q)
    (h : p.same q = true) : p = q := by
  have hspell {r : Path} (hr : r.normalize = r) : r = ofComponents r.components := by
    have hc := components_normalize r
    rw [hr] at hc
    rw [hc, ← normalize_eq, hr]
  rw [hspell hp, hspell hq, same_iff.mp h]

end Path

namespace PathMap

variable {α : Type}

/-! ## Lookups -/

/-- In a list of entries, an inserted value is found at its path, and all other places are as before. -/
theorem get?_insertEntry (p q : Path) (v : α) (l : List (Path × α)) :
    (⟨insertEntry p v l⟩ : PathMap α).get? q
      = if p.same q then some v else (⟨l⟩ : PathMap α).get? q := by
  induction l with
  | nil => cases h : p.same q <;> simp [insertEntry, get?, h]
  | cons e l ih =>
      obtain ⟨r, w⟩ := e
      rw [insertEntry]
      split
      · cases h : p.same q <;> simp [get?, h]
      · rename_i hc
        have hs := Path.same_congr (Path.compare_eq_eq.mp hc) q
        cases h : r.same q <;> simp [get?, hs, h]
      · rename_i hc
        have hs : p.same r = false := by
          rw [Bool.eq_false_iff, Ne, ← Path.compare_eq_eq, hc]
          decide
        cases h : r.same q with
        | true =>
            have hp : p.same q = false := by
              rw [Path.same_comm, ← Path.same_congr h, Path.same_comm, hs]
            simp [get?, h, hp]
        | false =>
            have h' : (⟨(r, w) :: insertEntry p v l⟩ : PathMap α).get? q
                = (⟨insertEntry p v l⟩ : PathMap α).get? q := by simp [get?, h]
            rw [h', ih]
            simp [get?, h]

/-- After an insertion its path has the value, and every other path has what it had. -/
theorem get?_insert (m : PathMap α) (p q : Path) (v : α) :
    (m.insert p v).get? q = if p.same q then some v else m.get? q := get?_insertEntry p q v m.entries

/-- After a removal its path has nothing, and every other path has what it had. -/
theorem get?_erase (m : PathMap α) (p q : Path) :
    (m.erase p).get? q = if p.same q then none else m.get? q := by
  obtain ⟨l⟩ := m
  induction l with
  | nil => simp [erase, get?]
  | cons e l ih =>
      obtain ⟨r, w⟩ := e
      simp only [erase, get?] at ih ⊢
      cases hr : r.same p with
      | true =>
          rw [List.filter_cons_of_neg (by simp [hr]), ih]
          cases hq : r.same q with
          | true => simp [← Path.same_congr hr, hq]
          | false => simp [hq]
      | false =>
          rw [List.filter_cons_of_pos (by simp [hr])]
          cases hq : r.same q with
          | true =>
              have hp : p.same q = false := by
                rw [Path.same_comm, ← Path.same_congr hq, hr]
              simp [hq, hp]
          | false => simpa [hq] using ih

/-- A map contains the paths that it has a value for. -/
theorem contains_eq (m : PathMap α) (p : Path) : m.contains p = (m.get? p).isSome := by
  rw [contains, get?, Option.isSome_map, Bool.eq_iff_iff, List.any_eq_true, List.find?_isSome]

/-- What is found does not depend on how the path is spelled. -/
theorem get?_congr {p q : Path} (h : p.same q = true) (m : PathMap α) : m.get? p = m.get? q := by
  unfold get?
  simp only [Path.same_comm _ p, Path.same_comm _ q, Path.same_congr h]

/-- Whether a path is in a map does not depend on how it is spelled. -/
theorem contains_congr {p q : Path} (h : p.same q = true) (m : PathMap α) :
    m.contains p = m.contains q := by
  rw [contains_eq, contains_eq, get?_congr h]

/-- An insertion adds one path. -/
theorem contains_insert (m : PathMap α) (p q : Path) (v : α) :
    (m.insert p v).contains q = (p.same q || m.contains q) := by
  rw [contains_eq, get?_insert, contains_eq]
  cases p.same q <;> rfl

/-- A removal takes one path away. -/
theorem contains_erase (m : PathMap α) (p q : Path) :
    (m.erase p).contains q = (!p.same q && m.contains q) := by
  rw [contains_eq, get?_erase, contains_eq]
  cases p.same q <;> rfl

/-- A map of some entries contains their paths. -/
theorem contains_ofList (es : List (Path × α)) (q : Path) :
    (ofList es).contains q = es.any (·.1.same q) := by
  induction es using List.reverseRecOn with
  | nil => rfl
  | append_singleton es e ih =>
      rw [ofList, List.foldl_append, ← ofList, List.any_append, ← ih, Bool.or_comm]
      show ((ofList es).insert e.1 e.2).contains q = _
      rw [contains_insert, List.any_cons, List.any_nil, Bool.or_false]

/-- A map of entries whose values depend on their places alone. -/
theorem get?_ofList {f : Path → Option α} (hf : ∀ {p q : Path}, p.same q = true → f p = f q)
    {es : List (Path × α)} (hes : ∀ e ∈ es, f e.1 = some e.2) (q : Path) :
    (ofList es).get? q = if es.any (·.1.same q) then f q else none := by
  induction es using List.reverseRecOn with
  | nil => rfl
  | append_singleton es e ih =>
      have hrest := ih fun e' he' => hes e' (List.mem_append_left _ he')
      rw [ofList, List.foldl_append, ← ofList, List.any_append]
      show ((ofList es).insert e.1 e.2).get? q = _
      rw [get?_insert, hrest, List.any_cons, List.any_nil, Bool.or_false]
      cases hs : e.1.same q with
      | true => rw [Bool.or_true, if_pos rfl, if_pos rfl, ← hf hs, hes e (by simp)]
      | false => rw [Bool.or_false, if_neg Bool.false_ne_true]

@[simp] theorem get?_empty (p : Path) : (empty : PathMap α).get? p = none := rfl

/-- A value that is found stands in an entry, under some spelling of the path. -/
theorem mem_of_get? {m : PathMap α} {p : Path} {v : α} (h : m.get? p = some v) :
    ∃ q, (q, v) ∈ m.entries ∧ q.same p = true := by
  obtain ⟨⟨q, w⟩, hfind, rfl⟩ := Option.map_eq_some_iff.mp h
  have hs := List.find?_some hfind
  exact ⟨q, List.mem_of_find?_eq_some hfind, hs⟩

/-! ## Maps in order -/

/-- The entries are in the order of their places, one for each place. -/
def Ordered (m : PathMap α) : Prop := m.entries.Pairwise fun a b => a.1.compare b.1 = .lt

/-- Without entries there is nothing out of order. -/
theorem ordered_empty : (empty : PathMap α).Ordered := List.Pairwise.nil

/-- An entry after an insertion was there, or has the new value at the new key or at a spelling of it
    that was there. -/
theorem mem_insertEntry {p : Path} {v : α} {l : List (Path × α)} {e : Path × α}
    (h : e ∈ insertEntry p v l) :
    e ∈ l ∨ e.2 = v ∧ (e.1 = p ∨ e.1.same p = true ∧ e.1 ∈ l.map (·.1)) := by
  induction l with
  | nil =>
      rw [insertEntry, List.mem_singleton] at h
      exact .inr (by rw [h]; exact ⟨rfl, .inl rfl⟩)
  | cons a l ih =>
      obtain ⟨q, w⟩ := a
      rw [insertEntry] at h
      split at h
      · rcases List.mem_cons.mp h with rfl | h
        · exact .inr ⟨rfl, .inl rfl⟩
        · exact .inl h
      · rename_i hc
        rcases List.mem_cons.mp h with rfl | h
        · have hs : q.same p = true := by
            rw [Path.same_comm]
            exact Path.compare_eq_eq.mp hc
          exact .inr ⟨rfl, .inr ⟨hs, List.mem_cons_self⟩⟩
        · exact .inl (List.mem_cons_of_mem _ h)
      · rcases List.mem_cons.mp h with rfl | h
        · exact .inl List.mem_cons_self
        · rcases ih h with h | ⟨hv, h | ⟨hs, h⟩⟩
          · exact .inl (List.mem_cons_of_mem _ h)
          · exact .inr ⟨hv, .inl h⟩
          · exact .inr ⟨hv, .inr ⟨hs, List.mem_cons_of_mem _ h⟩⟩

/-- The order of paths can be read backwards. -/
theorem compare_lt_of_gt {p q : Path} (h : p.compare q = .gt) : q.compare p = .lt := by
  rw [show q.compare p = (p.compare q).swap from OrientedCmp.eq_swap, h]
  rfl

/-- An insertion keeps the entries in order. -/
theorem Ordered.insert {m : PathMap α} (h : m.Ordered) (p : Path) (v : α) : (m.insert p v).Ordered := by
  obtain ⟨l⟩ := m
  show (insertEntry p v l).Pairwise fun a b => a.1.compare b.1 = .lt
  induction l with
  | nil => exact List.pairwise_singleton _ _
  | cons a l ih =>
      obtain ⟨q, w⟩ := a
      obtain ⟨hq, hl⟩ := List.pairwise_cons.mp h
      rw [insertEntry]
      split
      · rename_i hc
        refine List.pairwise_cons.mpr ⟨fun b hb => ?_, h⟩
        rcases List.mem_cons.mp hb with rfl | hb
        · exact hc
        · exact TransCmp.lt_trans hc (hq b hb)
      · exact List.pairwise_cons.mpr ⟨hq, hl⟩
      · rename_i hc
        refine List.pairwise_cons.mpr ⟨fun b hb => ?_, ih hl⟩
        rcases mem_insertEntry hb with hb | ⟨-, hb | ⟨hb, -⟩⟩
        · exact hq b hb
        · rw [hb]
          exact compare_lt_of_gt hc
        · have hbp : q.compare b.1 = q.compare p := by
            rw [Path.compare_eq, Path.compare_eq, Path.same_iff.mp hb]
          rw [hbp]
          exact compare_lt_of_gt hc

/-- A removal keeps the entries in order. -/
theorem Ordered.erase {m : PathMap α} (h : m.Ordered) (p : Path) : (m.erase p).Ordered :=
  List.Pairwise.filter _ h

/-- In an ordered map every entry is found by its own path. -/
theorem get?_of_mem {m : PathMap α} (h : m.Ordered) {p : Path} {v : α} (hm : (p, v) ∈ m.entries) :
    m.get? p = some v := by
  obtain ⟨l⟩ := m
  induction l with
  | nil => exact absurd hm (by simp)
  | cons a l ih =>
      obtain ⟨q, w⟩ := a
      obtain ⟨hq, hl⟩ := List.pairwise_cons.mp h
      rcases List.mem_cons.mp hm with heq | hm
      · cases heq
        simp [get?]
      · have hs : q.same p = false := by
          rw [Bool.eq_false_iff, Ne, ← Path.compare_eq_eq, hq _ hm]
          decide
        rw [← ih hl hm]
        simp [get?, hs]

/-! ## Keys -/

/-- The keys are the paths that the map contains. -/
theorem any_keys_same (m : PathMap α) (p : Path) : m.keys.any (·.same p) = m.contains p := by
  rw [contains, keys, List.any_map]
  rfl

/-- An insertion brings no key but its own. -/
theorem mem_keys_insert {m : PathMap α} {p q : Path} {v : α} (h : q ∈ (m.insert p v).keys) :
    q = p ∨ q ∈ m.keys := by
  obtain ⟨e, he, rfl⟩ := List.mem_map.mp h
  rcases mem_insertEntry he with he | ⟨-, he | ⟨-, he⟩⟩
  · exact .inr (List.mem_map_of_mem he)
  · exact .inl he
  · exact .inr he

/-- A removal brings no key. -/
theorem mem_keys_erase {m : PathMap α} {p q : Path} (h : q ∈ (m.erase p).keys) : q ∈ m.keys := by
  obtain ⟨e, he, rfl⟩ := List.mem_map.mp h
  exact List.mem_map_of_mem (List.mem_filter.mp he).1

/-- The keys of a map are spelled as the entries that it was made of. -/
theorem mem_keys_ofList {es : List (Path × α)} {q : Path} (h : q ∈ (ofList es).keys) :
    q ∈ es.map (·.1) := by
  induction es using List.reverseRecOn with
  | nil => exact h
  | append_singleton es e ih =>
      rw [ofList, List.foldl_append] at h
      rw [List.map_append, List.mem_append]
      rcases mem_keys_insert h with rfl | h
      · exact .inr List.mem_cons_self
      · exact .inl (ih h)

/-- Inserting at a new path only puts an entry in its place among the others. -/
theorem perm_insertEntry {p : Path} {v : α} {l : List (Path × α)} (h : ∀ e ∈ l, p.same e.1 = false) :
    (insertEntry p v l).Perm ((p, v) :: l) := by
  induction l with
  | nil => exact .refl _
  | cons e l ih =>
      obtain ⟨q, w⟩ := e
      obtain ⟨hq, hl⟩ := List.forall_mem_cons.mp h
      rw [insertEntry]
      split
      · exact .refl _
      · next hc =>
          rw [Path.compare_eq_eq, hq] at hc
          exact nomatch hc
      · exact ((ih hl).cons _).trans (.swap _ _ _)

/-- Entries at different places are all there. -/
theorem perm_ofList {es : List (Path × α)} (h : es.Pairwise fun a b => a.1.same b.1 = false) :
    (ofList es).entries.Perm es := by
  induction es using List.reverseRecOn with
  | nil => exact .refl _
  | append_singleton es e ih =>
      obtain ⟨hes, -, hlast⟩ := List.pairwise_append.mp h
      rw [ofList, List.foldl_append, ← ofList]
      refine (perm_insertEntry fun a ha => ?_).trans
        (((ih hes).cons _).trans (List.perm_append_singleton e es).symm)
      rw [Path.same_comm]
      exact hlast a ((ih hes).mem_iff.mp ha) e List.mem_cons_self

/-- Every key is folded. -/
def Folded (m : PathMap α) : Prop := ∀ p ∈ m.keys, p.normalize = p

/-- A folded key leaves all keys folded. -/
theorem Folded.insert {m : PathMap α} (h : m.Folded) {p : Path} (hp : p.normalize = p) (v : α) :
    (m.insert p v).Folded := by
  intro q hq
  obtain ⟨e, he, rfl⟩ := List.mem_map.mp hq
  rcases mem_insertEntry he with he | ⟨-, he | ⟨-, he⟩⟩
  · exact h _ (List.mem_map_of_mem he)
  · rw [he, hp]
  · exact h _ he

/-- A removal leaves all keys folded. -/
theorem Folded.erase {m : PathMap α} (h : m.Folded) (p : Path) : (m.erase p).Folded := by
  intro q hq
  obtain ⟨e, he, rfl⟩ := List.mem_map.mp hq
  exact h _ (List.mem_map_of_mem (List.mem_filter.mp he).1)

/-- Without keys there is none that is not folded. -/
theorem folded_empty : (empty : PathMap α).Folded := fun _ hp => absurd hp (by simp [empty, keys])

/-- At a folded place a lookup finds the entry with this very key. -/
theorem get?_eq_some_iff {m : PathMap α} (h : m.Ordered) (hf : m.Folded) {p : Path}
    (hp : p.normalize = p) {v : α} : m.get? p = some v ↔ (p, v) ∈ m.entries := by
  constructor
  · intro hg
    obtain ⟨q, hq, hs⟩ := mem_of_get? hg
    rw [← Path.eq_of_same (hf q (List.mem_map_of_mem hq)) hp hs]
    exact hq
  · exact get?_of_mem h

/-- **A map is what its lookups say**, if it is in order and its keys are folded. -/
theorem ext_get? {a b : PathMap α} (ha : a.Ordered) (hb : b.Ordered) (hfa : a.Folded)
    (hfb : b.Folded) (h : ∀ p, a.get? p = b.get? p) : a.entries = b.entries := by
  have hsub {a b : PathMap α} (ha : a.Ordered) (hfa : a.Folded) (hfb : b.Folded)
      (h : ∀ p, a.get? p = b.get? p) : ∀ e ∈ a.entries, e ∈ b.entries := by
    rintro ⟨p, v⟩ he
    have hg := h p
    rw [get?_of_mem ha he] at hg
    obtain ⟨q, hq, hs⟩ := mem_of_get? hg.symm
    have hpq : q = p := Path.eq_of_same (hfb q (List.mem_map_of_mem hq))
      (hfa p (List.mem_map_of_mem he)) hs
    rw [← hpq]
    exact hq
  have hnodup {a : PathMap α} (ha : a.Ordered) : a.entries.Nodup := by
    refine List.Pairwise.imp (fun {x y} hxy heq => ?_) ha
    rw [heq, show y.1.compare y.1 = .eq from ReflCmp.compare_self] at hxy
    exact absurd hxy (by decide)
  have hperm : a.entries.Perm b.entries :=
    (List.perm_ext_iff_of_nodup (hnodup ha) (hnodup hb)).mpr fun e =>
      ⟨hsub ha hfa hfb h e, hsub hb hfb hfa (fun p => (h p).symm) e⟩
  refine hperm.eq_of_pairwise (fun x y _ _ hxy hyx => ?_) ha hb
  rw [show x.1.compare y.1 = (y.1.compare x.1).swap from OrientedCmp.eq_swap, hyx] at hxy
  exact absurd hxy (by decide)

end PathMap

end Typings
