import Typings.Proofs.Path.Below
import Typings.Proofs.Path.Map

/-!
# `Parents` — the places above a place

The parent of a path is found in its spelling.  What it does to the components is simple: the last of them
goes (`components_of_parent?`), and only the root and the empty path have no parent
(`parent?_eq_none_iff`).  So the places above a path are the proper beginnings of its list of components, and
`ancestors` goes through all of them.

* `Path.piecesComponents`: the components that pieces between slashes stand for; `text_eq_nil_iff`: none only
  if there is nothing to read.
* `Path.Above`: a place above another one; `above_iff_of_parent?`, `Above.trans`.
* `Path.ancestors_eq`: the path, then what is above it from its parent on; `above_iff_ancestors`.
-/

namespace Typings.Path

/-! ## Components of pieces -/

/-- The components that the pieces between slashes stand for.  At the start of a relative path a `.`
    counts. -/
def piecesComponents (leading : Bool) (pieces : List Text) : List Component :=
  if leading = true ∧ pieces.head? = some ['.'] then .current :: pieces.filterMap pieceComponent?
  else pieces.filterMap pieceComponent?

/-- The pieces of a path between its slashes; the slash of the root is not one of them. -/
def pieces (p : Path) : List Text := List.splitOn '/' (if p.isAbsolute then p.text.drop 1 else p.text)

/-- The path starts at the root, or at no component. -/
def start (p : Path) : List Component := if p.isAbsolute then [.root] else []

/-- The components are read from the pieces, behind those of the start. -/
theorem components_eq_pieces (p : Path) :
    p.components = p.start ++ piecesComponents (!p.isAbsolute) p.pieces := by
  unfold components start pieces piecesComponents
  by_cases habs : p.isAbsolute = true
  · obtain ⟨t, ht⟩ : ∃ t, p.text = '/' :: t := by
      unfold isAbsolute at habs
      exact List.head?_eq_some_iff.mp (beq_iff_eq.mp habs)
    rw [if_pos habs, if_pos habs, if_pos habs, ht, Text.splitOn_cons_sep,
      List.filterMap_cons_none (by rfl), if_neg (by simp [habs])]
    rfl
  · rw [if_neg habs, if_neg habs, if_neg habs, List.nil_append]
    split
    · next hdot => rw [if_pos ⟨by simpa using habs, beq_iff_eq.mp hdot⟩]
    · next hdot => rw [if_neg fun hd => hdot (beq_iff_eq.mpr hd.2)]

/-- The last piece, when it comes first, stands for a component. -/
def Speaks (leading : Bool) : List Text → Prop
  | [] => True
  | last :: front => pieceComponent? last ≠ none ∨ front = [] ∧ leading = true ∧ last = ['.']

/-- After dropping, the last piece is one that says something. -/
theorem speaks_dropSilent (leading : Bool) (pieces : List Text) :
    Speaks leading (dropSilent leading pieces) := by
  fun_induction dropSilent leading pieces with
  | case1 => trivial
  | case2 piece hdot =>
      rw [Bool.and_eq_true, beq_iff_eq] at hdot
      exact .inr ⟨rfl, hdot.2, hdot.1⟩
  | case3 piece hdot hnone => trivial
  | case4 piece hdot hsome => exact .inl (by simpa using hsome)
  | case5 piece rest _ hnone ih => exact ih
  | case6 piece rest _ hsome => exact .inl (by simpa using hsome)

/-- Pieces at the end that stand for nothing may be dropped. -/
theorem piecesComponents_dropSilent (leading : Bool) (pieces : List Text) :
    piecesComponents leading (dropSilent leading pieces).reverse
      = piecesComponents leading pieces.reverse := by
  fun_induction dropSilent leading pieces with
  | case1 => rfl
  | case2 piece hdot => rfl
  | case3 piece hdot hnone =>
      have hsilent : pieceComponent? piece = none := by simpa using hnone
      have hhead : ¬ (leading = true ∧ [piece].head? = some ['.']) := by
        rintro ⟨rfl, hd⟩
        obtain rfl := Option.some.inj hd
        exact hdot rfl
      rw [List.reverse_singleton, piecesComponents, piecesComponents, if_neg hhead,
        List.filterMap_cons_none hsilent, if_neg (by simp), List.reverse_nil]
  | case4 piece hdot hsome => rfl
  | case5 piece rest hrest hnone ih =>
      have hsilent : pieceComponent? piece = none := by simpa using hnone
      have hhead : (rest.reverse ++ [piece]).head? = rest.reverse.head? := by
        rw [List.head?_append, Option.or_of_isSome (by simpa using hrest)]
      rw [ih, List.reverse_cons, piecesComponents, piecesComponents, hhead, List.filterMap_append,
        List.filterMap_cons_none hsilent, List.filterMap_nil, List.append_nil]
  | case6 piece rest _ hsome => rfl

/-- A last piece that stands for a component comes behind the others. -/
theorem exists_piecesComponents {leading : Bool} {last : Text} {front : List Text}
    (h : Speaks leading (last :: front)) :
    ∃ c, c ≠ .root ∧ piecesComponents leading (last :: front).reverse
      = piecesComponents leading front.reverse ++ [c] := by
  rw [List.reverse_cons]
  rcases h with hsome | ⟨rfl, rfl, rfl⟩
  · obtain ⟨c, hc⟩ := Option.ne_none_iff_exists'.mp hsome
    have hroot : c ≠ .root := by
      rintro rfl
      unfold pieceComponent? at hc
      split at hc
      · exact nomatch hc
      · split at hc <;> exact nomatch hc
    refine ⟨c, hroot, ?_⟩
    -- A `.` alone stands for nothing, so the first piece is a `.` if it was one before.
    have hhead : (front.reverse ++ [last]).head? = some ['.'] ↔ front.reverse.head? = some ['.'] := by
      cases front.reverse with
      | nil =>
          have hdot : last ≠ ['.'] := by
            rintro rfl
            exact hsome rfl
          simpa using hdot
      | cons piece rest => rfl
    simp only [piecesComponents, hhead, List.filterMap_append, List.filterMap_cons_some hc,
      List.filterMap_nil]
    split <;> rfl
  · exact ⟨.current, by decide, by decide⟩

/-! ## The parent -/

/-- What is kept for the parent, and the piece that goes. -/
theorem exists_of_parent? {p up : Path} (h : p.parent? = some up) :
    ∃ last front, dropSilent (!p.isAbsolute) p.pieces.reverse = last :: front ∧
      up.text = (if p.isAbsolute then ['/'] else []) ++
        List.intercalate ['/'] (dropSilent (!p.isAbsolute) front).reverse := by
  unfold parent? at h
  dsimp only at h
  split at h
  · exact nomatch h
  · next last front hpieces =>
      obtain rfl := Option.some.inj h
      refine ⟨last, front, hpieces, ?_⟩
      cases p.isAbsolute <;> rfl

/-- The parent of an absolute path is absolute, and that of a relative one relative. -/
theorem isAbsolute_of_parent? {p up : Path} (h : p.parent? = some up) : up.isAbsolute = p.isAbsolute := by
  by_cases habs : p.isAbsolute = true
  · obtain ⟨last, front, -, hup⟩ := exists_of_parent? h
    rw [isAbsolute, hup, habs]
    rfl
  · have hparent := isAbsolute_parentDir_of_relative (by simpa using habs)
    rw [parentDir, h] at hparent
    exact hparent.trans (by simpa using habs)

/-- The parent has all components but the last one. -/
theorem components_of_parent? {p up : Path} (h : p.parent? = some up) :
    ∃ c, c ≠ .root ∧ p.components = up.components ++ [c] := by
  obtain ⟨last, front, hpieces, hup⟩ := exists_of_parent? h
  have hspeaks := speaks_dropSilent (!p.isAbsolute) p.pieces.reverse
  have hcomponents := piecesComponents_dropSilent (!p.isAbsolute) p.pieces.reverse
  rw [hpieces] at hspeaks hcomponents
  obtain ⟨c, hc, hlast⟩ := exists_piecesComponents hspeaks
  rw [hlast, ← piecesComponents_dropSilent, List.reverse_reverse] at hcomponents
  have hstart := isAbsolute_of_parent? h
  have hkept : piecesComponents (!p.isAbsolute) up.pieces
      = piecesComponents (!p.isAbsolute) (dropSilent (!p.isAbsolute) front).reverse := by
    have hspell : up.pieces
        = List.splitOn '/' (List.intercalate ['/'] (dropSilent (!p.isAbsolute) front).reverse) := by
      rw [pieces, hstart, hup]
      cases p.isAbsolute <;> rfl
    rw [hspell]
    by_cases hnil : (dropSilent (!p.isAbsolute) front).reverse = []
    · rw [hnil]
      cases !p.isAbsolute <;> decide
    · rw [List.splitOn_intercalate _ _ hnil]
      -- The pieces that are kept are pieces of the path, so they have no slashes.
      intro piece hpiece
      have hfront := (dropSilent_suffix _ front).mem (List.mem_reverse.mp hpiece)
      have hall : piece ∈ dropSilent (!p.isAbsolute) p.pieces.reverse := by
        rw [hpieces]
        exact List.mem_cons_of_mem _ hfront
      exact Text.not_mem_of_mem_splitOn (List.mem_reverse.mp ((dropSilent_suffix _ _).mem hall))
  refine ⟨c, hc, ?_⟩
  rw [components_eq_pieces p, components_eq_pieces up, hstart, hkept, ← hcomponents, start, start, hstart,
    List.append_assoc]

/-- The root and the empty path have no parent; all other paths have one. -/
theorem parent?_eq_none_iff {p : Path} :
    p.parent? = none ↔ p.components = [] ∨ p.components = [.root] := by
  constructor
  · intro h
    have hpieces : dropSilent (!p.isAbsolute) p.pieces.reverse = [] := by
      unfold parent? at h
      dsimp only at h
      split at h
      · assumption
      · exact nomatch h
    have hcomponents := piecesComponents_dropSilent (!p.isAbsolute) p.pieces.reverse
    rw [hpieces, List.reverse_reverse] at hcomponents
    rw [components_eq_pieces, ← hcomponents, start]
    cases p.isAbsolute
    · exact .inl rfl
    · exact .inr rfl
  · intro h
    by_contra hsome
    obtain ⟨up, hup⟩ := Option.ne_none_iff_exists'.mp hsome
    obtain ⟨c, hc, hp⟩ := components_of_parent? hup
    rcases h with h | h
    · rw [h] at hp
      exact List.append_ne_nil_of_right_ne_nil _ (by simp) hp.symm
    · rw [h] at hp
      have hlast := congrArg List.getLast? hp
      rw [List.getLast?_concat] at hlast
      exact hc (Option.some.inj hlast).symm

/-- The directory of an absolute path is absolute, unless the path is the root. -/
theorem isAbsolute_parentDir {p : Path} (h : p.isAbsolute = true) (hroot : p.components ≠ [.root]) :
    p.parentDir.isAbsolute = true := by
  have hnil : p.components ≠ [] := by
    rw [components_of_isAbsolute h]
    exact List.cons_ne_nil _ _
  obtain ⟨up, hup⟩ := Option.ne_none_iff_exists'.mp
    (mt parent?_eq_none_iff.mp (not_or.mpr ⟨hnil, hroot⟩))
  rw [parentDir, hup]
  exact (isAbsolute_of_parent? hup).trans h

/-- A file with an absolute path lies in a directory with one. -/
theorem isAbsolute_parentDir_of_fileName? {p : Path} {n : Text} (h : p.isAbsolute = true)
    (hn : p.fileName? = some n) : p.parentDir.isAbsolute = true := by
  refine isAbsolute_parentDir h fun hroot => ?_
  rw [fileName?, hroot] at hn
  cases hn

/-- Only the empty path has no components. -/
theorem text_eq_nil_iff {p : Path} : p.text = [] ↔ p.components = [] := by
  constructor
  · intro h
    have hp : p = empty := congrArg Path.mk h
    rw [hp]
    decide
  · intro h
    by_contra ht
    obtain ⟨d, t, ht⟩ := List.exists_cons_of_ne_nil ht
    have habs : p.isAbsolute = false := by
      by_contra ha
      rw [components_of_isAbsolute (by simpa using ha)] at h
      exact List.cons_ne_nil _ _ h
    have hd : d ≠ '/' := by
      rintro rfl
      rw [isAbsolute, ht] at habs
      exact absurd habs (by simp)
    -- The first piece has a character, so it is the `.` at the start or stands for a component.
    obtain ⟨piece, rest, -, hsplit⟩ := Text.splitOn_cons_of_ne hd t
    rw [components_eq_pieces, start, pieces, habs, if_neg (by decide), if_neg (by decide), ht, hsplit,
      List.nil_append, piecesComponents] at h
    split at h
    · exact List.cons_ne_nil _ _ h
    · next hdot =>
        have hne : d :: piece ≠ ['.'] := fun he => hdot ⟨rfl, by rw [he]; rfl⟩
        have hsome : pieceComponent? (d :: piece) ≠ none := by
          unfold pieceComponent?
          rw [if_neg (by simpa using hne)]
          split <;> simp
        obtain ⟨c, hc⟩ := Option.ne_none_iff_exists'.mp hsome
        rw [List.filterMap_cons_some hc] at h
        exact List.cons_ne_nil _ _ h

/-! ## Places above -/

/-- The place `q` is above `p`; the empty path is above nothing. -/
def Above (q p : Path) : Prop :=
  q.components ≠ [] ∧ q.components <+: p.components ∧ q.components ≠ p.components

instance (q p : Path) : Decidable (q.Above p) := inferInstanceAs (Decidable (_ ∧ _ ∧ _))

/-- What is above a directory is above all that is below it. -/
theorem Above.trans {a b c : Path} (h : a.Above b) (h' : b.Above c) : a.Above c := by
  refine ⟨h.1, h.2.1.trans h'.2.1, fun he => h.2.2 ?_⟩
  exact h.2.1.eq_of_length_le (he ▸ h'.2.1.length_le)

/-- What is below a path does not depend on how that path is spelled. -/
theorem above_congr_left {a b : Path} (h : a.same b = true) (p : Path) : a.Above p ↔ b.Above p := by
  unfold Above
  rw [same_iff.mp h]

/-- What is above a path does not depend on how that path is spelled. -/
theorem above_congr {a b : Path} (h : a.same b = true) (q : Path) : q.Above a ↔ q.Above b := by
  unfold Above
  rw [same_iff.mp h]

/-- What is above a path is its parent or above its parent. -/
theorem above_iff_of_parent? {p up : Path} (h : p.parent? = some up) (q : Path) :
    q.Above p ↔ q.components ≠ [] ∧ (up.same q = true ∨ q.Above up) := by
  obtain ⟨c, -, hp⟩ := components_of_parent? h
  unfold Above
  rw [hp, List.prefix_concat_iff, same_iff, eq_comm (a := up.components)]
  constructor
  · rintro ⟨hne, hpre, hq⟩
    have hup := hpre.resolve_left hq
    by_cases he : q.components = up.components
    · exact ⟨hne, .inl he⟩
    · exact ⟨hne, .inr ⟨hne, hup, he⟩⟩
  · rintro ⟨hne, he | ⟨-, hup, -⟩⟩
    · refine ⟨hne, .inr (he ▸ List.prefix_refl _), ?_⟩
      rw [he]
      simp
    · refine ⟨hne, .inr hup, fun he => ?_⟩
      have hlength := hup.length_le
      rw [he, List.length_append, List.length_singleton] at hlength
      omega

/-- Nothing is above a path without a parent. -/
theorem not_above_of_parent? {p : Path} (h : p.parent? = none) (q : Path) : ¬ q.Above p := by
  rintro ⟨hne, hpre, hq⟩
  have hlength := List.length_pos_iff.mpr hne
  have hle := hpre.length_le
  rcases parent?_eq_none_iff.mp h with hp | hp
  · rw [hp, List.length_nil] at hle
    omega
  · rw [hp] at hle hpre hq
    refine hq (hpre.eq_of_length_le ?_)
    rwa [List.length_singleton]

/-- The parent is above the path, unless it is empty. -/
theorem above_of_parentDir {p q : Path} (h : p.parentDir.same q = true) (hq : q.components ≠ []) :
    q.Above p := by
  unfold parentDir at h
  cases hparent : p.parent? with
  | none =>
      rw [hparent] at h
      exact absurd (same_iff.mp h).symm hq
  | some up =>
      rw [hparent] at h
      exact (above_iff_of_parent? hparent q).mpr ⟨hq, .inl h⟩

/-- The empty path is its own parent directory. -/
theorem components_parentDir_of_eq_nil {p : Path} (h : p.components = []) : p.parentDir.components = [] := by
  rw [parentDir, parent?_eq_none_iff.mpr (.inl h)]
  rfl

/-! ## All of them -/

/-- A piece gives one component at most. -/
theorem length_piecesComponents_le (leading : Bool) (pieces : List Text) :
    (piecesComponents leading pieces).length ≤ pieces.length := by
  unfold piecesComponents
  split
  · next hdot =>
      obtain ⟨rest, rfl⟩ := List.head?_eq_some_iff.mp hdot.2
      rw [List.filterMap_cons_none (by rfl), List.length_cons, List.length_cons]
      exact Nat.succ_le_succ (List.length_filterMap_le _ _)
  · exact List.length_filterMap_le _ _

/-- A path has hardly more components than characters. -/
theorem length_components_le (p : Path) : p.components.length ≤ p.text.length + 1 := by
  have hspoken := length_piecesComponents_le (!p.isAbsolute) p.pieces
  have hpieces := Text.length_splitOn_le '/' (if p.isAbsolute then p.text.drop 1 else p.text)
  rw [components_eq_pieces, List.length_append]
  unfold start
  by_cases habs : p.isAbsolute = true
  · have hne : p.text ≠ [] := by
      intro hnil
      rw [isAbsolute, hnil] at habs
      exact absurd habs (by decide)
    have hpos := List.length_pos_iff.mpr hne
    rw [if_pos habs, List.length_drop] at hpieces
    rw [if_pos habs, List.length_singleton]
    unfold pieces at hspoken ⊢
    rw [if_pos habs] at hspoken ⊢
    omega
  · rw [if_neg habs] at hpieces
    rw [if_neg habs, List.length_nil]
    unfold pieces at hspoken ⊢
    rw [if_neg habs] at hspoken ⊢
    omega

/-- Each climb takes one component away, so that as many climbs as there are components suffice. -/
theorem ancestors_go {fuel more : Nat} {p : Path} (h : p.components.length ≤ fuel)
    (h' : p.components.length ≤ more) : ancestors.go fuel p = ancestors.go more p := by
  induction fuel generalizing more p with
  | zero =>
      have hparent : p.parent? = none :=
        parent?_eq_none_iff.mpr (.inl (List.length_eq_zero_iff.mp (Nat.le_zero.mp h)))
      cases more with
      | zero => rfl
      | succ more => rw [ancestors.go, ancestors.go, hparent]
  | succ fuel ih =>
      cases hparent : p.parent? with
      | none =>
          cases more with
          | zero => rw [ancestors.go, ancestors.go, hparent]
          | succ more => rw [ancestors.go, ancestors.go, hparent]
      | some up =>
          obtain ⟨c, -, hp⟩ := components_of_parent? hparent
          rw [hp, List.length_append, List.length_singleton] at h h'
          obtain ⟨more, rfl⟩ := Nat.exists_eq_succ_of_ne_zero (n := more) (by omega)
          rw [ancestors.go, ancestors.go, hparent]
          exact congrArg _ (ih (by omega) (by omega))

/-- The path and what is above it, from its parent on. -/
theorem ancestors_eq (p : Path) :
    p.ancestors = p :: match p.parent? with
      | some up => up.ancestors
      | none => [] := by
  rw [ancestors, ancestors.go]
  cases hparent : p.parent? with
  | none => rfl
  | some up =>
      obtain ⟨c, -, hp⟩ := components_of_parent? hparent
      have hle := length_components_le p
      rw [hp, List.length_append, List.length_singleton] at hle
      exact congrArg _ (ancestors_go (by omega) (length_components_le up))

/-- The places above a path are those that are climbed to from it. -/
theorem above_iff_ancestors (q p : Path) :
    q.Above p ↔ q.components ≠ [] ∧ ∃ up ∈ p.ancestors.tail, up.same q = true := by
  -- A climb takes one component away.
  induction hlength : p.components.length using Nat.strong_induction_on generalizing p with
  | _ n ih =>
      rw [ancestors_eq, List.tail_cons]
      cases hparent : p.parent? with
      | none => simp [not_above_of_parent? hparent q]
      | some up =>
          obtain ⟨c, -, hp⟩ := components_of_parent? hparent
          have hup := ih up.components.length (by rw [← hlength, hp]; simp) up rfl
          have hclimb : up.ancestors = up :: up.ancestors.tail := by rw [ancestors_eq, List.tail_cons]
          show _ ↔ q.components ≠ [] ∧ ∃ r ∈ up.ancestors, r.same q = true
          rw [above_iff_of_parent? hparent, hup, hclimb, List.tail_cons]
          simp only [List.mem_cons, exists_eq_or_imp]
          rw [and_or_left, and_or_left, and_self_left]

end Typings.Path
