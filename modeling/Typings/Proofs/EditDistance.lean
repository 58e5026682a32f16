import Mathlib.Data.List.Induction
import Mathlib.Order.Bounds.Defs
import Mathlib.Order.Lattice
import Typings.Configuration.Reader

/-!
# `EditDistance` — what the table of distances counts

The table of `editDistance` keeps one row and fills the next one from it.  What stands in it is the least number of
items to insert, to delete or to replace, whatever the order in which that is done (`isLeast_editDistance`), so the
key that is suggested for an unknown one is the first of those that take the fewest edits (`suggestions_nearest`).

Edits are counted from wherever they are made, while the table looks at the ends of the two lists only.  Between
the two is `distance`, the recurrence on the first items: one edit changes it by at most one, and it is reached by
as many edits.

* `Edit`, `Edits`: one edit, and so many of them.
* `distance`: the recurrence; `Edit.near`, `edits_distance`: it is the least number of edits.
* `distances`: a row; `nextRow_distances`, one row after the other.
* `FirstNearest`: the first of the nearest candidates; `closest?_spec`: the one that is found.
-/

namespace Typings

namespace EditDistance

variable {α : Type}

/-! ## Edits -/

/-- One item is inserted, deleted or replaced by another. -/
inductive Edit : List α → List α → Prop where
  | insert (front : List α) (x : α) (back : List α) : Edit (front ++ back) (front ++ x :: back)
  | delete (front : List α) (x : α) (back : List α) : Edit (front ++ x :: back) (front ++ back)
  | replace (front : List α) (x y : α) (back : List α) : Edit (front ++ x :: back) (front ++ y :: back)

/-- So many edits, one after the other. -/
inductive Edits : Nat → List α → List α → Prop where
  | refl (a : List α) : Edits 0 a a
  | tail {n : Nat} {a b c : List α} (h : Edits n a b) (e : Edit b c) : Edits (n + 1) a c

/-- An edit can be made behind another item. -/
theorem Edit.cons {a b : List α} (h : Edit a b) (x : α) : Edit (x :: a) (x :: b) := by
  cases h with
  | insert front y back => exact .insert (x :: front) y back
  | delete front y back => exact .delete (x :: front) y back
  | replace front y z back => exact .replace (x :: front) y z back

/-- An edit can be made from the back. -/
theorem Edit.reverse {a b : List α} (h : Edit a b) : Edit a.reverse b.reverse := by
  cases h with
  | insert front x back => simpa using Edit.insert back.reverse x front.reverse
  | delete front x back => simpa using Edit.delete back.reverse x front.reverse
  | replace front x y back => simpa using Edit.replace back.reverse x y front.reverse

namespace Edits

variable {n : Nat} {a b c : List α}

/-- So many edits can be made behind another item. -/
theorem cons (h : Edits n a b) (x : α) : Edits n (x :: a) (x :: b) := by
  induction h with
  | refl => exact .refl _
  | tail _ e ih => exact ih.tail (e.cons x)

/-- So many edits can be made from the back. -/
theorem reverse (h : Edits n a b) : Edits n a.reverse b.reverse := by
  induction h with
  | refl => exact .refl _
  | tail _ e ih => exact ih.tail e.reverse

/-- One more edit in front of the others. -/
theorem head (e : Edit a b) (h : Edits n b c) : Edits (n + 1) a c := by
  induction h with
  | refl => exact (Edits.refl a).tail e
  | tail _ e' ih => exact (ih e).tail e'

/-- All items can be deleted one by one. -/
theorem delete_all (a : List α) : Edits a.length a [] := by
  induction a with
  | nil => exact .refl []
  | cons x a ih => exact ih.head (.delete [] x a)

/-- All items can be inserted one by one. -/
theorem insert_all (b : List α) : Edits b.length [] b := by
  induction b with
  | nil => exact .refl []
  | cons y b ih => exact ih.tail (.insert [] y b)

end Edits

/-! ## The recurrence -/

variable [BEq α]

/-- The distance by the first items: one of them is deleted or inserted, or one replaces the other. -/
def distance : List α → List α → Nat
  | [], b => b.length
  | a@(_ :: _), [] => a.length
  | x :: a, y :: b =>
    min (min (distance a (y :: b) + 1) (distance (x :: a) b + 1)) (distance a b + if x == y then 0 else 1)

/-- From nothing, every item is inserted. -/
theorem distance_nil_left (b : List α) : distance [] b = b.length := by rw [distance]

/-- To nothing, every item is deleted. -/
theorem distance_nil_right (a : List α) : distance a [] = a.length := by cases a <;> rw [distance]

/-- The first items are told apart, or one of them is deleted or inserted: the cheapest of the three counts. -/
theorem distance_cons_cons (x y : α) (a b : List α) :
    distance (x :: a) (y :: b)
      = min (min (distance a (y :: b) + 1) (distance (x :: a) b + 1))
          (distance a b + if x == y then 0 else 1) := by
  rw [distance]

/-- Deleting the first item costs at most one. -/
theorem distance_cons_left_le (x : α) (a b : List α) : distance (x :: a) b ≤ distance a b + 1 := by
  cases b with
  | nil => rw [distance_nil_right, distance_nil_right, List.length_cons]
  | cons y b =>
      rw [distance_cons_cons]
      omega

/-- Inserting a first item costs at most one. -/
theorem distance_cons_right_le (y : α) (a b : List α) : distance a (y :: b) ≤ distance a b + 1 := by
  cases a with
  | nil => rw [distance_nil_left, distance_nil_left, List.length_cons]
  | cons x a =>
      rw [distance_cons_cons]
      omega

/-- Replacing the first item costs at most one. -/
theorem distance_cons_cons_le (x y : α) (a b : List α) :
    distance (x :: a) (y :: b) ≤ distance a b + 1 := by
  have hcost : (if x == y then 0 else 1) ≤ 1 := by split <;> omega
  rw [distance_cons_cons]
  omega

/-- A list is at no distance from itself. -/
theorem distance_self [LawfulBEq α] (a : List α) : distance a a = 0 := by
  induction a with
  | nil => rw [distance_nil_left, List.length_nil]
  | cons x a ih =>
      rw [distance_cons_cons, ih, if_pos (beq_self_eq_true x)]
      omega

/-! ## One edit -/

/-- From wherever it is measured, `c` is at most one farther than `b`. -/
def Near (b c : List α) : Prop := ∀ a, distance a c ≤ distance a b + 1

/-- An insertion in front leads at most one farther. -/
theorem near_insert (y : α) (b : List α) : Near b (y :: b) := fun a => distance_cons_right_le y a b

/-- A deletion in front leads at most one farther. -/
theorem near_delete (y : α) (b : List α) : Near (y :: b) b := by
  intro a
  induction a with
  | nil =>
      rw [distance_nil_left, distance_nil_left, List.length_cons]
      omega
  | cons x a ih =>
      have hup := distance_cons_left_le x a b
      rw [distance_cons_cons]
      omega

/-- A replacement in front leads at most one farther. -/
theorem near_replace (x y : α) (b : List α) : Near (x :: b) (y :: b) := by
  intro a
  -- Each of the three ways to the old distance gives one to the new distance.
  induction a with
  | nil =>
      rw [distance_nil_left, distance_nil_left, List.length_cons, List.length_cons]
      omega
  | cons z a ih =>
      have hup := distance_cons_left_le z a (y :: b)
      have hleft := distance_cons_right_le y (z :: a) b
      have hdiagonal := distance_cons_cons_le z y a b
      rw [distance_cons_cons z x]
      omega

/-- An edit behind another item leads at most one farther. -/
theorem Near.cons {b c : List α} (h : Near b c) (y : α) : Near (y :: b) (y :: c) := by
  intro a
  induction a with
  | nil =>
      have hnil := h []
      rw [distance_nil_left, distance_nil_left] at hnil ⊢
      rw [List.length_cons, List.length_cons]
      omega
  | cons x a ih =>
      have hleft := h (x :: a)
      have hdiagonal := h a
      rw [distance_cons_cons, distance_cons_cons]
      omega

/-- An edit behind any items leads at most one farther. -/
theorem Near.append {b c : List α} (h : Near b c) (front : List α) : Near (front ++ b) (front ++ c) := by
  induction front with
  | nil => exact h
  | cons x front ih => exact ih.cons x

/-- **One edit** changes the distance by at most one. -/
theorem Edit.near {b c : List α} (e : Edit b c) : Near b c := by
  cases e with
  | insert front y back => exact (near_insert y back).append front
  | delete front y back => exact (near_delete y back).append front
  | replace front x y back => exact (near_replace x y back).append front

/-! ## The least number of edits -/

section

variable [LawfulBEq α]

/-- No way to make edits is shorter than the distance. -/
theorem distance_le_of_edits {n : Nat} {a b : List α} (h : Edits n a b) : distance a b ≤ n := by
  induction h with
  | refl a => exact Nat.le_of_eq (distance_self a)
  | @tail n a b c _ e ih => exact (e.near a).trans (Nat.succ_le_succ ih)

/-- There is a way of just so many edits. -/
theorem edits_distance (a b : List α) : Edits (distance a b) a b := by
  fun_induction distance a b with
  | case1 b => exact .insert_all b
  | case2 x a => exact .delete_all (x :: a)
  | case3 x a y b hup hleft hdiagonal =>
      have hboth : Edits (distance a b + if x == y then 0 else 1) (x :: a) (y :: b) := by
        split
        · next heq =>
            rw [← beq_iff_eq.mp heq]
            exact hdiagonal.cons x
        · exact (hdiagonal.cons x).tail (.replace [] x y b)
      have hone := hup.head (.delete [] x a)
      have hother := hleft.tail (.insert [] y b)
      exact min_rec' (Edits · _ _) (min_rec' (Edits · _ _) hone hother) hboth

/-- **The distance is the least number of edits.** -/
theorem isLeast_distance (a b : List α) : IsLeast { n | Edits n a b } (distance a b) :=
  ⟨edits_distance a b, fun _ => distance_le_of_edits⟩

end

/-! ## Rows -/

/-- The distances of `a` to longer and longer beginnings of a list, which are read from the back: `passed` is what
    was passed already. -/
def distancesBeyond (a passed : List α) : List α → List Nat
  | [] => []
  | y :: ys => distance a (y :: passed) :: distancesBeyond a (y :: passed) ys

/-- The distances of `a` to all beginnings of `b`. -/
def distances (b a : List α) : List Nat := distance a [] :: distancesBeyond a [] b

theorem distancesBeyond_nil (passed ys : List α) :
    distancesBeyond [] passed ys = List.range' (passed.length + 1) ys.length := by
  induction ys generalizing passed with
  | nil => rfl
  | cons y ys ih =>
      rw [distancesBeyond, ih, distance_nil_left, List.length_cons, List.length_cons, List.range'_succ]

theorem distances_nil (b : List α) : distances b [] = List.range (b.length + 1) := by
  rw [distances, distancesBeyond_nil, distance_nil_left, List.range_eq_range', List.range'_succ]
  rfl

/-- What the table has to the left, above and across is what the recurrence asks for. -/
theorem extendRow_eq (x : α) (a passed ys : List α) :
    extendRow x (distance (x :: a) passed) ys (distance a passed) (distancesBeyond a passed ys)
      = distancesBeyond (x :: a) passed ys := by
  induction ys generalizing passed with
  | nil => rfl
  | cons y ys ih => rw [distancesBeyond, distancesBeyond, extendRow, ← distance_cons_cons, ih]

/-- **One row** after the other. -/
theorem nextRow_distances (x : α) (a b : List α) : nextRow b (distances b a) x = distances b (x :: a) := by
  have hfirst : distance a [] + 1 = distance (x :: a) [] := by
    rw [distance_nil_right, distance_nil_right, List.length_cons]
  rw [distances, nextRow, distances, hfirst, extendRow_eq]

/-- Row by row, the table has the distances from what was passed. -/
theorem foldl_nextRow (a passed b : List α) :
    a.foldl (nextRow b) (distances b passed) = distances b (a.reverse ++ passed) := by
  induction a generalizing passed with
  | nil => rfl
  | cons x a ih =>
      rw [List.foldl_cons, nextRow_distances, ih, List.reverse_cons, List.append_assoc, List.singleton_append]

theorem getLast?_distancesBeyond (a passed ys : List α) :
    (distance a passed :: distancesBeyond a passed ys).getLast? = some (distance a (ys.reverse ++ passed)) := by
  induction ys generalizing passed with
  | nil => rfl
  | cons y ys ih =>
      rw [distancesBeyond, List.getLast?_cons_cons, ih, List.reverse_cons, List.append_assoc,
        List.singleton_append]

/-- The last entry of the last row. -/
theorem editDistance_eq (a b : List α) : editDistance a b = distance a.reverse b.reverse := by
  rw [editDistance, ← distances_nil, foldl_nextRow, List.append_nil, distances, getLast?_distancesBeyond,
    List.append_nil, Option.getD_some]

/-- **What the table gives is the least number of edits.** -/
theorem isLeast_editDistance [LawfulBEq α] (a b : List α) :
    IsLeast { n | Edits n a b } (editDistance a b) := by
  -- The rows read both lists from the back, where the same edits do.
  obtain ⟨hreached, hleast⟩ := isLeast_distance a.reverse b.reverse
  have hforth := hreached.reverse
  rw [List.reverse_reverse, List.reverse_reverse] at hforth
  rw [editDistance_eq]
  exact ⟨hforth, fun n h => hleast h.reverse⟩

end EditDistance

open EditDistance (Edits isLeast_editDistance)

/-! ## The nearest candidate -/

/-- The number of bytes to be edited. -/
def byteDistance (s t : Text) : Nat := editDistance s.bytes t.bytes

/-- One more candidate takes the place of the best only if it is nearer. -/
theorem closest?_concat (word : Text) (cs : List Text) (c : Text) :
    closest? word (cs ++ [c]) =
      match closest? word cs with
      | some (best, least) =>
        if byteDistance word c < least then some (c, byteDistance word c) else some (best, least)
      | none => some (c, byteDistance word c) := by
  rw [closest?, List.foldl_append, ← closest?, List.foldl_cons, List.foldl_nil]
  cases closest? word cs <;> rfl

/-- Of some candidates one is the closest. -/
theorem closest?_ne_none (word : Text) {cs : List Text} (h : cs ≠ []) : closest? word cs ≠ none := by
  obtain ⟨front, c, rfl⟩ := (List.eq_nil_or_concat cs).resolve_left h
  rw [List.concat_eq_append, closest?_concat]
  split
  · split <;> simp
  · simp

/-- The first of the nearest candidates: those in front of it are farther, those behind it are not nearer. -/
def FirstNearest (word : Text) (cs : List Text) (best : Text) : Prop :=
  ∃ front back, cs = front ++ best :: back ∧ (∀ c ∈ front, byteDistance word best < byteDistance word c) ∧
    ∀ c ∈ back, byteDistance word best ≤ byteDistance word c

namespace FirstNearest

variable {word best c : Text} {cs : List Text}

/-- A single candidate is the nearest. -/
theorem single (word c : Text) : FirstNearest word [c] c := ⟨[], [], rfl, by simp, by simp⟩

/-- The nearest candidate is one of them. -/
theorem mem (h : FirstNearest word cs best) : best ∈ cs := by
  obtain ⟨front, back, rfl, -, -⟩ := h
  exact List.mem_append_right _ List.mem_cons_self

/-- No candidate is nearer. -/
theorem least (h : FirstNearest word cs best) : ∀ d ∈ cs, byteDistance word best ≤ byteDistance word d := by
  obtain ⟨front, back, rfl, hfront, hback⟩ := h
  exact List.forall_mem_append.mpr ⟨fun d hd => (hfront d hd).le, List.forall_mem_cons.mpr ⟨le_rfl, hback⟩⟩

/-- One candidate more that is nearer takes the place of the one found before. -/
theorem concat_near (h : FirstNearest word cs best) (hc : byteDistance word c < byteDistance word best) :
    FirstNearest word (cs ++ [c]) c :=
  ⟨cs, [], rfl, fun d hd => hc.trans_le (h.least d hd), by simp⟩

/-- One that is not nearer does not. -/
theorem concat_far (h : FirstNearest word cs best) (hc : ¬ byteDistance word c < byteDistance word best) :
    FirstNearest word (cs ++ [c]) best := by
  obtain ⟨front, back, rfl, hfront, hback⟩ := h
  refine ⟨front, back ++ [c], by simp, hfront, ?_⟩
  exact List.forall_mem_append.mpr ⟨hback, List.forall_mem_singleton.mpr (Nat.le_of_not_lt hc)⟩

/-- It is the first candidate within a limit than which none is nearer, if it is within the limit. -/
theorem find?_eq (h : FirstNearest word cs best) (limit : Nat) :
    (cs.find? fun c => decide (byteDistance word c ≤ limit ∧
        ∀ d ∈ cs, byteDistance word c ≤ byteDistance word d))
      = if byteDistance word best ≤ limit then some best else none := by
  split
  · next hnear =>
      have hbest := h.mem
      have hleast := h.least
      obtain ⟨front, back, hcs, hfront, -⟩ := h
      rw [List.find?_eq_some_iff_append]
      refine ⟨decide_eq_true ⟨hnear, hleast⟩, front, back, hcs, ?_⟩
      -- A candidate in front is farther than the one that is claimed to be first.
      intro c hc
      rw [Bool.not_eq_true', decide_eq_false_iff_not]
      rintro ⟨-, hnone⟩
      exact Nat.not_le_of_lt (hfront c hc) (hnone best hbest)
  · next hfar =>
      rw [List.find?_eq_none]
      intro c hc hfits
      exact hfar ((h.least c hc).trans (of_decide_eq_true hfits).1)

end FirstNearest

/-- The search ends with the first of the nearest candidates, and with its distance. -/
theorem closest?_spec {word best : Text} {cs : List Text} {least : Nat}
    (h : closest? word cs = some (best, least)) :
    least = byteDistance word best ∧ FirstNearest word cs best := by
  induction cs using List.reverseRecOn generalizing best least with
  | nil => exact nomatch h
  | append_singleton cs c ih =>
      rw [closest?_concat] at h
      cases hcs : closest? word cs with
      | none =>
          have hnil : cs = [] := by
            by_contra hne
            exact closest?_ne_none word hne hcs
          rw [hcs] at h
          obtain ⟨rfl, rfl⟩ := Prod.mk.inj (Option.some.inj h)
          rw [hnil]
          exact ⟨rfl, .single word _⟩
      | some found =>
          obtain ⟨known, reach⟩ := found
          obtain ⟨rfl, hknown⟩ := ih hcs
          rw [hcs] at h
          dsimp only at h
          split at h
          · next hnear =>
              obtain ⟨rfl, rfl⟩ := Prod.mk.inj (Option.some.inj h)
              exact ⟨rfl, hknown.concat_near hnear⟩
          · next hfar =>
              obtain ⟨rfl, rfl⟩ := Prod.mk.inj (Option.some.inj h)
              exact ⟨rfl, hknown.concat_far hfar⟩

theorem knownKeys_ne_nil : knownKeys ≠ [] := List.append_ne_nil_of_right_ne_nil _ (List.cons_ne_nil _ _)

/-- The suggestion is the first of the known keys that is within two bytes and than which none is nearer. -/
theorem suggestKey_eq_find? (key : Text) :
    suggestKey key = knownKeys.find? fun c =>
      decide (byteDistance key c ≤ 2 ∧ ∀ d ∈ knownKeys, byteDistance key c ≤ byteDistance key d) := by
  obtain ⟨⟨best, least⟩, hfound⟩ := Option.ne_none_iff_exists'.mp (closest?_ne_none key knownKeys_ne_nil)
  obtain ⟨rfl, hbest⟩ := closest?_spec hfound
  have h : suggestKey key = if byteDistance key best ≤ 2 then some best else none := by
    unfold suggestKey
    simp only [hfound]
  exact h.trans (hbest.find?_eq 2).symm

/-- **Suggestions go by the edit distance.** The distance of two texts is the least number of bytes to insert, to
    delete or to replace that turns one into the other, and the suggestion for a key is the first of the known keys
    at the least distance, if that is two at most. -/
theorem suggestions_nearest :
    (∀ a b : Text, IsLeast { n | Edits n a.bytes b.bytes } (editDistance a.bytes b.bytes)) ∧
      ∀ key : Text, suggestKey key = knownKeys.find? fun c =>
        decide (editDistance key.bytes c.bytes ≤ 2 ∧
          ∀ d ∈ knownKeys, editDistance key.bytes c.bytes ≤ editDistance key.bytes d.bytes) :=
  ⟨fun a b => isLeast_editDistance a.bytes b.bytes, suggestKey_eq_find?⟩

/-- `find` is two bytes away as well, and listed later. -/
example : suggestKey "fil" = some "lib" := by decide +kernel

end Typings
