import Typings.Text

/-!
# Sets of code points

A set is kept as its ranges in order, with a gap between any two.  Tables are written as rows of
ranges in hexadecimal: `"41-5A 5F"` are the capitals and the underscore, `"100-136/2"` is every
second code point from the first to the last.

* `CodeSet.contains`: membership.
* `CodeSet.ofRanges`: the set of some ranges in any order; `contains_ofRanges` says that it has their
  members and no others.
* `union`, `compl`, `inter`, `diff`, `symmDiff`: the operations; a complement has no surrogates,
  since those are no characters.
-/

namespace Typings.Unicode

/-- A range of code points, both ends included. -/
structure CodeRange where
  first : Nat
  last : Nat
deriving DecidableEq, Repr, Inhabited

/-- The code point lies in the range. -/
def CodeRange.contains (r : CodeRange) (n : Nat) : Bool := r.first ≤ n && n ≤ r.last

/-- A set of code points. -/
structure CodeSet where
  ranges : List CodeRange
deriving DecidableEq, Repr, Inhabited

namespace CodeSet

/-! ## Members -/

/-- Some range of a list contains the code point. -/
def anyContains (rs : List CodeRange) (n : Nat) : Bool := rs.any (·.contains n)

@[simp] theorem anyContains_nil (n : Nat) : anyContains [] n = false := rfl

@[simp] theorem anyContains_cons (r : CodeRange) (rs : List CodeRange) (n : Nat) :
    anyContains (r :: rs) n = (r.contains n || anyContains rs n) := rfl

@[simp] theorem anyContains_append (rs ss : List CodeRange) (n : Nat) :
    anyContains (rs ++ ss) n = (anyContains rs n || anyContains ss n) := by
  simp [anyContains]

/-- The code point is a member. -/
def contains (s : CodeSet) (n : Nat) : Bool := anyContains s.ranges n

/-- The character is a member. -/
def has (s : CodeSet) (c : Char) : Bool := s.contains c.toNat

/-! ## Ranges in order -/

/-- Two ranges with no gap between them. -/
def touch (r s : CodeRange) : Bool := s.first ≤ r.last + 1 && r.first ≤ s.last + 1

/-- The least range that covers two. -/
def hull (r s : CodeRange) : CodeRange := ⟨min r.first s.first, max r.last s.last⟩

/-- The hull of ranges that touch has no other members. -/
theorem contains_hull {r s : CodeRange} (h : touch r s = true) (n : Nat) :
    (hull r s).contains n = (r.contains n || s.contains n) := by
  simp only [touch, Bool.and_eq_true, decide_eq_true_eq] at h
  rw [Bool.eq_iff_iff]
  unfold hull CodeRange.contains
  simp only [Bool.and_eq_true, Bool.or_eq_true, decide_eq_true_eq]
  omega

/-- Neighbours that touch are joined. -/
def coalesce (r : CodeRange) : List CodeRange → List CodeRange
  | [] => [r]
  | s :: rest => if touch r s then coalesce (hull r s) rest else r :: coalesce s rest

/-- Joining neighbours keeps the members. -/
theorem anyContains_coalesce (r : CodeRange) (rs : List CodeRange) (n : Nat) :
    anyContains (coalesce r rs) n = (r.contains n || anyContains rs n) := by
  induction rs generalizing r with
  | nil => simp [coalesce]
  | cons s rest ih =>
      unfold coalesce
      split
      · next h => rw [ih, contains_hull h, anyContains_cons, Bool.or_assoc]
      · rw [anyContains_cons, ih, anyContains_cons]

/-- The set of some ranges, in any order. -/
def ofRanges (rs : List CodeRange) : CodeSet :=
  match rs.mergeSort (fun a b => a.first ≤ b.first) with
  | [] => ⟨[]⟩
  | r :: rest => ⟨coalesce r rest⟩

/-- The members of a set are the members of the ranges it is made of. -/
theorem contains_ofRanges (rs : List CodeRange) (n : Nat) :
    (ofRanges rs).contains n = anyContains rs n := by
  have hp : (rs.mergeSort (fun a b => a.first ≤ b.first)).Perm rs := List.mergeSort_perm rs _
  have hany : anyContains (rs.mergeSort (fun a b => a.first ≤ b.first)) n = anyContains rs n := by
    rw [Bool.eq_iff_iff]
    simp only [anyContains, List.any_eq_true, hp.mem_iff]
  rw [← hany]
  unfold ofRanges contains
  split
  · next h => rw [h]
  · next r rest h => rw [h, anyContains_coalesce, anyContains_cons]

/-- Joining neighbours keeps the order. -/
theorem pairwise_coalesce (r : CodeRange) (rs : List CodeRange)
    (h : (r :: rs).Pairwise fun a b => a.first ≤ b.first) :
    (coalesce r rs).Pairwise (fun a b => a.first ≤ b.first) ∧
      ∀ s ∈ coalesce r rs, r.first ≤ s.first := by
  induction rs generalizing r with
  | nil => simp [coalesce]
  | cons s rest ih =>
      have hrs : r.first ≤ s.first := List.rel_of_pairwise_cons h (List.mem_cons_self ..)
      have hrest : ∀ x ∈ rest, r.first ≤ x.first := fun x hx =>
        List.rel_of_pairwise_cons h (List.mem_cons_of_mem _ hx)
      have htail := List.Pairwise.of_cons (List.Pairwise.of_cons h)
      unfold coalesce
      split
      · have hfirst : (hull r s).first = r.first := Nat.min_eq_left hrs
        have hi := ih (hull r s) (List.pairwise_cons.2 ⟨fun x hx => hfirst ▸ hrest x hx, htail⟩)
        exact ⟨hi.1, fun x hx => hfirst ▸ hi.2 x hx⟩
      · have hi := ih s (List.Pairwise.of_cons h)
        have hle : ∀ x ∈ coalesce s rest, r.first ≤ x.first := fun x hx =>
          Nat.le_trans hrs (hi.2 x hx)
        refine ⟨List.pairwise_cons.2 ⟨hle, hi.1⟩, ?_⟩
        intro x hx
        rcases List.mem_cons.1 hx with rfl | hx
        · exact Nat.le_refl _
        · exact hle x hx

/-- The ranges of a set that is made of ranges are in order. -/
theorem pairwise_ofRanges (rs : List CodeRange) :
    (ofRanges rs).ranges.Pairwise fun a b => a.first ≤ b.first := by
  have hs : (rs.mergeSort (fun a b => decide (a.first ≤ b.first))).Pairwise
      (fun a b => decide (a.first ≤ b.first) = true) :=
    List.pairwise_mergeSort (fun a b c => by simpa using Nat.le_trans)
      (fun a b => by simpa using Nat.le_total a.first b.first) rs
  simp only [decide_eq_true_eq] at hs
  unfold ofRanges
  split
  · exact List.Pairwise.nil
  · next r rest h =>
    rw [h] at hs
    exact (pairwise_coalesce r rest hs).1

/-! ## Simple sets -/

/-- No member. -/
def none : CodeSet := ⟨[]⟩

/-- The last code point. -/
def maxCode : Nat := 0x10FFFF

/-- Every code point. -/
def all : CodeSet := ⟨[⟨0, maxCode⟩]⟩

/-- The code points from one to another. -/
def range (first last : Nat) : CodeSet := ⟨[⟨first, last⟩]⟩

/-- The set of one character. -/
def single (c : Char) : CodeSet := range c.toNat c.toNat

/-- The set of some characters. -/
def ofText (t : Text) : CodeSet := ofRanges (t.map fun c => ⟨c.toNat, c.toNat⟩)

/-- The set has no member. -/
def isEmpty (s : CodeSet) : Bool := s.ranges.isEmpty

/-- The only member, if there is just one. -/
def single? (s : CodeSet) : Option Char :=
  match s.ranges with
  | [r] => if r.first == r.last then some (Char.ofNat r.first) else Option.none
  | _ => Option.none

/-- All members are below 128. -/
def isAscii (s : CodeSet) : Bool := s.ranges.all (·.last < 0x80)

/-! ## Operations -/

/-- The members of either set. -/
def union (a b : CodeSet) : CodeSet := ofRanges (a.ranges ++ b.ranges)

/-- A member of a union is a member of one of the two. -/
@[simp] theorem contains_union (a b : CodeSet) (n : Nat) :
    (union a b).contains n = (a.contains n || b.contains n) := by
  rw [union, contains_ofRanges, anyContains_append]
  rfl

/-- The members of some of the sets. -/
def unions (sets : List CodeSet) : CodeSet := ofRanges (sets.flatMap (·.ranges))

/-- The gaps of ranges in order, from a code point on. -/
def gaps (start : Nat) : List CodeRange → List CodeRange
  | [] => if start ≤ maxCode then [⟨start, maxCode⟩] else []
  | r :: rest =>
    if start < r.first then ⟨start, r.first - 1⟩ :: gaps (max start (r.last + 1)) rest
    else gaps (max start (r.last + 1)) rest

/-- The gaps have the code points that no range has. -/
theorem anyContains_gaps {rs : List CodeRange} (hs : rs.Pairwise fun a b => a.first ≤ b.first)
    {n : Nat} (hn : n ≤ maxCode) (start : Nat) :
    anyContains (gaps start rs) n = (decide (start ≤ n) && !anyContains rs n) := by
  induction rs generalizing start with
  | nil =>
      unfold gaps
      by_cases h : start ≤ maxCode
      · simp [h, CodeRange.contains, hn]
      · have : ¬ start ≤ n := by omega
        simp [h, this]
  | cons r rest ih =>
      have hrest : n < r.first → anyContains rest n = false := by
        intro h
        rw [anyContains, List.any_eq_false]
        intro s hmem
        have hle := List.rel_of_pairwise_cons hs hmem
        simp only [CodeRange.contains, Bool.and_eq_true, decide_eq_true_eq]
        omega
      have htail := ih (List.Pairwise.of_cons hs) (max start (r.last + 1))
      rw [Bool.eq_iff_iff]
      unfold gaps
      cases hmem : anyContains rest n with
      | true =>
          have hle : r.first ≤ n := by
            by_cases hlt : n < r.first
            · rw [hrest hlt] at hmem
              exact absurd hmem (by simp)
            · omega
          split
          · rw [anyContains_cons, htail, anyContains_cons, hmem]
            simp [CodeRange.contains]
            omega
          · rw [htail, anyContains_cons, hmem]
            simp
      | false =>
          split
          · rw [anyContains_cons, htail, anyContains_cons, hmem]
            simp [CodeRange.contains]
            omega
          · rw [htail, anyContains_cons, hmem]
            simp [CodeRange.contains]
            omega

/-- The code points that are no characters. -/
def surrogates : CodeRange := ⟨0xD800, 0xDFFF⟩

/-- The characters that are no members. -/
def compl (s : CodeSet) : CodeSet := ⟨gaps 0 (ofRanges (surrogates :: s.ranges)).ranges⟩

/-- A character is a member of the complement if it is no member. -/
@[simp] theorem has_compl (s : CodeSet) (c : Char) : (compl s).has c = !s.has c := by
  have hc := c.valid
  have hval : c.toNat = c.val.toNat := rfl
  have hmax : c.toNat ≤ maxCode := by
    rcases hc with h | h
    · have h' : c.val.toNat < 0xD800 := h
      simp only [maxCode]
      omega
    · have h' : c.val.toNat < 0x110000 := h.2
      simp only [maxCode]
      omega
  have hsur : surrogates.contains c.toNat = false := by
    rw [CodeRange.contains, Bool.and_eq_false_iff, decide_eq_false_iff_not, decide_eq_false_iff_not]
    simp only [surrogates]
    rcases hc with h | h
    · have h' : c.val.toNat < 0xD800 := h
      omega
    · have h' : 0xDFFF < c.val.toNat := h.1
      omega
  have hall := contains_ofRanges (surrogates :: s.ranges) c.toNat
  rw [contains] at hall
  rw [has, contains, compl, anyContains_gaps (pairwise_ofRanges _) hmax, hall, anyContains_cons, hsur]
  simp [has, contains]

/-- The members of both sets. -/
def inter (a b : CodeSet) : CodeSet := compl (union (compl a) (compl b))

/-- A union has the characters of either set. -/
@[simp] theorem has_union (a b : CodeSet) (c : Char) : (union a b).has c = (a.has c || b.has c) :=
  contains_union a b c.toNat

/-- An intersection has the characters of both sets. -/
@[simp] theorem has_inter (a b : CodeSet) (c : Char) : (inter a b).has c = (a.has c && b.has c) := by
  simp [inter]

/-- The members of the first set that are none of the second. -/
def diff (a b : CodeSet) : CodeSet := compl (union (compl a) b)

/-- A difference has the characters of the first set that the second has not. -/
@[simp] theorem has_diff (a b : CodeSet) (c : Char) : (diff a b).has c = (a.has c && !b.has c) := by
  simp [diff]

/-- The members of one set but not of both. -/
def symmDiff (a b : CodeSet) : CodeSet := union (diff a b) (diff b a)

/-! ## Tables -/

/-- The value of a number in capitals to a base. -/
def numeral (base : Nat) (digits : Text) : Nat :=
  digits.foldl (fun n c => n * base + if c.isDigit then c.toNat - 48 else c.toNat - 55) 0

/-- An entry of a row. -/
def decodeEntry (t : Text) : List CodeRange :=
  match t.cutFirst? '-' with
  | Option.none => [⟨numeral 16 t, numeral 16 t⟩]
  | some (a, rest) =>
    let first := numeral 16 a
    match rest.cutFirst? '/' with
    | Option.none => [⟨first, numeral 16 rest⟩]
    | some (b, step) =>
      let step := numeral 10 step
      (List.range ((numeral 16 b - first) / step + 1)).map fun k =>
        ⟨first + k * step, first + k * step⟩

/-- The set written in some rows. -/
def ofRows (rows : List String) : CodeSet :=
  ofRanges (rows.flatMap fun row => (List.splitOn ' ' row.toList).flatMap decodeEntry)

end CodeSet

end Typings.Unicode
