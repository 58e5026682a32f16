import Typings.Files.Disk
import Typings.Proofs.Path.Parents

/-!
# `Spelling` — stores are asked about places

Whether something is there does not hang on how its place is spelled.  In memory this is so of every path.
On a disk a slash or a `.` at the end asks for a directory, so it is so of a name in a directory, however
the directory is spelled.

* `Memory.isThere_congr`: one answer for one place.
* `Disk.follow_concat`: pieces that stand for nothing do not change where a path leads.
* `Disk.isThere_join_congr`: one answer for a name in one directory.

A cache of what is where may then be keyed by places.
-/

namespace Typings.Files

open Typings.Path (pieceComponent?)

variable {p q : Path}

theorem Memory.isThere_congr (h : p.same q = true) (m : Memory) : m.isThere p = m.isThere q := by
  unfold Memory.isThere
  rw [PathMap.contains_congr h, PathMap.contains_congr h]

namespace Disk

/-- Only the components of the directories on the way count, in front of a name. -/
theorem follow_concat (d : Disk) (here : Path) (pieces : List Text) {n : Text} (hn : Path.ValidName n) :
    d.follow here (pieces ++ [n])
      = d.follow here ((pieces.filterMap pieceComponent?).map Component.text ++ [n]) := by
  have hlast (rest : List Text) : (rest ++ [n]).isEmpty = false ∧ (rest ++ [n]).all List.isEmpty = false := by
    simp [hn.1]
  induction pieces generalizing here with
  | nil => rfl
  | cons piece pieces ih =>
      rw [List.cons_append, follow]
      split
      · next hsilent =>
          have hnone : pieceComponent? piece = none := if_pos hsilent
          rw [List.filterMap_cons_none hnone, ih]
      · next hspeaks =>
          split
          · next hparent =>
              have hsome : pieceComponent? piece = some .parent := by
                rw [pieceComponent?, if_neg hspeaks, if_pos hparent]
              rw [List.filterMap_cons_some hsome, ih]
              rfl
          · next hname =>
              have hsome : pieceComponent? piece = some (.name piece) := by
                rw [pieceComponent?, if_neg hspeaks, if_neg hname]
              rw [List.filterMap_cons_some hsome, List.map_cons, List.cons_append, Component.text]
              conv_rhs => rw [follow, if_neg hspeaks, if_neg hname]
              simp only [hlast, ih]

/-- A character of a path is in one of its steps, unless it can stand between them. -/
theorem mem_text_iff {c : Char} (hslash : c ≠ '/') (hdot : c ≠ '.') :
    c ∈ p.text ↔ ∃ s ∈ p.steps, c ∈ s.text := by
  constructor
  · intro hc
    obtain ⟨piece, hpiece, hmem⟩ : ∃ piece ∈ List.splitOn '/' p.text, c ∈ piece :=
      Text.mem_splitOnP_iff.mpr ⟨hc, beq_eq_false_iff_ne.mpr hslash⟩
    have hspeaks : ¬ (piece.isEmpty || piece == ".") = true := by
      rw [Bool.or_eq_true, not_or, List.isEmpty_iff, beq_iff_eq]
      refine ⟨List.ne_nil_of_mem hmem, ?_⟩
      rintro rfl
      exact hdot (List.mem_singleton.mp hmem)
    obtain ⟨s, hs⟩ : ∃ s, pieceComponent? piece = some s := by
      rw [pieceComponent?, if_neg hspeaks]
      split
      · exact ⟨_, rfl⟩
      · exact ⟨_, rfl⟩
    have htext := (Path.step_of_pieceComponent? hs (Text.not_mem_of_mem_splitOn hpiece)).2
    exact ⟨s, List.mem_filterMap.mpr ⟨piece, hpiece, hs⟩, htext ▸ hmem⟩
  · rintro ⟨s, hs, hmem⟩
    exact Path.mem_text_of_mem_steps hs hmem

/-- The pieces of a name in a directory: those of the directory, and the name. -/
theorem exists_pieces_join (dir : Path) {n : Text} (hn : Path.ValidName n) :
    ∃ pieces, List.splitOn '/' (dir.join ⟨n⟩).text = pieces ++ [n] ∧
      pieces.filterMap pieceComponent? = dir.steps := by
  have hrel : (⟨n⟩ : Path).isAbsolute = false := Path.isAbsolute_of_slash_not_mem hn.2.2.2
  have hsteps := Path.steps_join (p := dir) hrel
  rw [show (⟨n⟩ : Path).steps = [.name n] from Path.steps_text (c := .name n) hn] at hsteps
  have hends : (dir.join ⟨n⟩).text = n ∨ ∃ front, (dir.join ⟨n⟩).text = front ++ '/' :: n := by
    by_cases hdir : dir.text = []
    · exact .inl (by simp [Path.join, hrel, hdir])
    · by_cases hl : dir.text.getLast? = some '/'
      · obtain ⟨u, hu⟩ := List.getLast?_eq_some_iff.mp hl
        exact .inr ⟨u, by simp [Path.join, hrel, hu]⟩
      · exact .inr ⟨dir.text, congrArg Path.text (Path.join_of_relative hrel hdir hl)⟩
  obtain ⟨pieces, hpieces⟩ := Text.splitOn_last hn.2.2.2 hends
  have hname : pieceComponent? n = some (.name n) := Path.pieceComponent?_text (c := .name n) hn
  refine ⟨pieces, hpieces, ?_⟩
  rw [Path.steps, hpieces, List.filterMap_append, List.filterMap_cons_some hname] at hsteps
  exact List.append_cancel_right hsteps

/-- A name is in a directory or not, however the directory is spelled. -/
theorem isThere_join_congr {a b : Path} (h : a.same b = true) {n : Text} (hn : Path.ValidName n) (d : Disk) :
    d.isThere (a.join ⟨n⟩) = d.isThere (b.join ⟨n⟩) := by
  have hcomponents : (a.join ⟨n⟩).components = (b.join ⟨n⟩).components := by
    rw [Path.components_join_name _ hn, Path.components_join_name _ hn, Path.same_iff.mp h]
  have hsteps := Path.steps_of_components hcomponents
  have habs : (a.join ⟨n⟩).isAbsolute = (b.join ⟨n⟩).isAbsolute :=
    Bool.eq_iff_iff.mpr (by rw [Path.isAbsolute_iff_root_mem, Path.isAbsolute_iff_root_mem, hcomponents])
  have hnul : (a.join ⟨n⟩).text.contains '\x00' = (b.join ⟨n⟩).text.contains '\x00' := by
    refine Bool.eq_iff_iff.mpr ?_
    rw [List.contains_iff_mem, List.contains_iff_mem, mem_text_iff (by decide) (by decide), hsteps,
      ← mem_text_iff (by decide) (by decide)]
  have hempty (dir : Path) : (dir.join ⟨n⟩).text.isEmpty = false := by
    rw [List.isEmpty_eq_false_iff, Ne, Path.text_eq_nil_iff, Path.components_join_name _ hn]
    exact List.append_ne_nil_of_right_ne_nil _ (List.cons_ne_nil _ _)
  obtain ⟨as, has, hasteps⟩ := exists_pieces_join a hn
  obtain ⟨bs, hbs, hbsteps⟩ := exists_pieces_join b hn
  have hlocate : d.locate (a.join ⟨n⟩) = d.locate (b.join ⟨n⟩) := by
    unfold locate
    rw [hempty, hempty, hnul, habs, has, hbs, follow_concat _ _ as hn, follow_concat _ _ bs hn, hasteps,
      hbsteps, Path.steps_of_components (Path.same_iff.mp h)]
  rw [isThere, isThere, hlocate]

end Disk

end Typings.Files
