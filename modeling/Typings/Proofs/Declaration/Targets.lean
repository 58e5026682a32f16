import Typings.Proofs.Declaration.Simulation
import Typings.Proofs.Path.Below
import Typings.Proofs.Path.Parents

/-!
# `Targets` — a resolved alias leads to its target

A literal alias makes its target relative first and glues the rest of the specifier on as text.  The
glued text is a path whose steps are those of the way, and then those of the rest, so it leads from the
directory of the file to the target with the same rest glued on, whatever dots and slashes are in it.

* `steps_glue`, `stack_glue`: a text that is glued on at a slash brings its own steps.
* `PointsAt dir w target`: `w` is explicitly relative and leads from `dir` to `target`.
* `pointsAt_seenFrom`: a target as it is seen from a directory, with more glued on.
* `mem_replaceFirst`: replacing brings no characters of its own.
* `pointsAt_resolveSpecifier`: what the rules of a set give.
-/

namespace Typings

namespace Path

/-! ## Glued texts -/

/-- More text for a path that starts at a slash, if there is any. -/
def Glued (t : Text) : Prop := ∀ c ∈ t.head?, c = '/'

theorem steps_glue {t : Text} (a : Text) (h : Glued t) :
    (⟨a ++ t⟩ : Path).steps = (⟨a⟩ : Path).steps ++ (⟨t⟩ : Path).steps := by
  cases t with
  | nil =>
      rw [List.append_nil]
      exact (List.append_nil _).symm
  | cons c t =>
      obtain rfl := h c rfl
      have hsilent : pieceComponent? [] = none := rfl
      rw [steps, steps, steps, List.splitOn_append_cons_self, Text.splitOn_cons_sep, List.filterMap_append,
        List.filterMap_cons_none hsilent]

theorem isAbsolute_glue {a : Text} (hne : a ≠ []) (t : Text) :
    (⟨a ++ t⟩ : Path).isAbsolute = (⟨a⟩ : Path).isAbsolute := by
  obtain ⟨c, a, rfl⟩ := List.exists_cons_of_ne_nil hne
  rfl

/-- The steps that are glued on are taken from where the path leads. -/
theorem stack_glue {a t : Text} (ha : (⟨a⟩ : Path).isAbsolute = true) (h : Glued t) :
    (⟨a ++ t⟩ : Path).stack = (⟨t⟩ : Path).steps.foldl foldComponent (⟨a⟩ : Path).stack := by
  have hne : a ≠ [] := by
    rintro rfl
    exact absurd ha (by decide)
  rw [stack_of_isAbsolute ((isAbsolute_glue hne t).trans ha), steps_glue a h, List.foldl_append,
    stack_of_isAbsolute ha]

end Path

namespace Declaration

open Typings.Path

/-! ## Explicitly relative specifiers -/

/-- A specifier that starts with a dot segment. -/
def DotRelative (w : Text) : Prop :=
  w = "." ∨ w = ".." ∨ ("./" : Text) <+: w ∨ ("../" : Text) <+: w

theorem dotRelative_dotRelative (t : Text) : DotRelative (dotRelative t) := by
  unfold dotRelative
  split
  · exact .inl rfl
  · split
    · rename_i h
      simp only [Bool.or_eq_true, beq_iff_eq, Text.startsWith_iff] at h
      unfold DotRelative
      tauto
    · exact .inr (.inr (.inl (List.prefix_append _ _)))

theorem DotRelative.glue {w t : Text} (h : DotRelative w) (ht : Glued t) : DotRelative (w ++ t) := by
  cases t with
  | nil => rwa [List.append_nil]
  | cons c t =>
      obtain rfl := ht c rfl
      rcases h with rfl | rfl | h | h
      · exact .inr (.inr (.inl ⟨t, rfl⟩))
      · exact .inr (.inr (.inr ⟨t, rfl⟩))
      · exact .inr (.inr (.inl (h.trans (List.prefix_append _ _))))
      · exact .inr (.inr (.inr (h.trans (List.prefix_append _ _))))

theorem DotRelative.isAbsolute {w : Text} (h : DotRelative w) : (⟨w⟩ : Path).isAbsolute = false := by
  rcases h with rfl | rfl | ⟨t, rfl⟩ | ⟨t, rfl⟩ <;> rfl

/-- The dot segment that is put in front is no step. -/
theorem steps_dotRelative (t : Text) : (⟨dotRelative t⟩ : Path).steps = (⟨t⟩ : Path).steps := by
  unfold dotRelative
  split
  · rename_i h
    rw [List.isEmpty_iff.mp h]
    rfl
  · split
    · rfl
    · rfl

/-! ## A target seen from a directory -/

/-- The specifier is explicitly relative and leads from the directory to the target. -/
def PointsAt (dir : Path) (w : Text) (target : Path) : Prop :=
  DotRelative w ∧ dir.resolve ⟨w⟩ = target.normalize

/-- **A target as it is seen from a directory**, with more text glued on, leads to the target with the
    same text glued on. -/
theorem pointsAt_seenFrom {dir : Path} {target t : Text} (htarget : (⟨target⟩ : Path).isAbsolute = true)
    (hdir : dir.isAbsolute = true) (hplain : '\\' ∉ target) (ht : Glued t) :
    PointsAt dir (seenFrom dir target ++ t) ⟨target ++ t⟩ := by
  have hway : seenFrom dir target = dotRelative (dir.relative ⟨target⟩).text := by
    have hplain' : (⟨target⟩ : Path).Plain := hplain
    rw [seenFrom, if_pos htarget, Plain.toSlash (hplain'.relative dir)]
  have hdot : DotRelative (seenFrom dir target) := hway ▸ dotRelative_dotRelative _
  refine ⟨hdot.glue ht, eq_of_stack_eq (normalize_resolve _ _) (normalize_normalize _) ?_⟩
  -- The way is followed to the target, and the steps that are glued on from there.
  have hrel : (dir.relative ⟨target⟩).isAbsolute = false := by
    obtain ⟨common, down, up, hdown, -, -, hrel⟩ := relative_of_isAbsolute hdir htarget
    rw [hrel]
    exact (components_ofComponents (step_of_mem_climb hdown)).2
  have harrive : (dir.relative ⟨target⟩).steps.foldl foldComponent dir.stack = (⟨target⟩ : Path).stack := by
    rw [← stack_resolve_of_relative hrel, resolve_relative htarget, stack_normalize]
  rw [stack_resolve_of_relative (hdot.glue ht).isAbsolute, steps_glue _ ht, List.foldl_append, hway,
    steps_dotRelative, harrive, stack_normalize, stack_glue htarget ht]

end Declaration

/-! ## Replacing -/

namespace Regex

open Pattern

theorem mem_of_cutFirst? {c d : Char} {t before after : Text}
    (h : Text.cutFirst? c t = some (before, after)) (hd : d ∈ after) : d ∈ t := by
  have happend := List.takeWhile_append_dropWhile (p := (· != c)) (l := t)
  rw [Text.cutFirst?, List.span_eq_takeWhile_dropWhile] at h
  cases hrest : t.dropWhile (· != c) with
  | nil => simp [hrest] at h
  | cons e rest =>
      obtain ⟨-, rfl⟩ : _ ∧ rest = after := by simpa [hrest] using h
      rw [← happend, hrest]
      exact List.mem_append_right _ (List.mem_cons_of_mem e hd)

/-- The texts between the groups of a template come from the template. -/
theorem mem_of_mem_templatePieces {fuel : Nat} {t u : Text} {d : Char}
    (h : .text u ∈ templatePieces fuel t) (hd : d ∈ u) : d ∈ t := by
  have hgroup {name : Text} {l : List TemplatePiece} (h : .text u ∈ .group name :: l) : .text u ∈ l :=
    (List.mem_cons.mp h).resolve_left (by simp)
  have htext {c : Char} {l : List TemplatePiece} (h : .text u ∈ .text [c] :: l) :
      d = c ∨ .text u ∈ l := by
    rcases List.mem_cons.mp h with heq | h
    · obtain rfl := TemplatePiece.text.inj heq
      exact .inl (List.mem_singleton.mp hd)
    · exact .inr h
  -- A text piece is a character of the template, or what is left when the fuel is used up.
  fun_induction templatePieces fuel t
  case case1 t =>
      obtain rfl := TemplatePiece.text.inj (List.mem_singleton.mp h)
      exact hd
  case case2 => exact absurd h List.not_mem_nil
  case case3 fuel t ih =>
      rcases htext h with rfl | h
      · exact List.mem_cons_self
      · exact List.mem_cons_of_mem _ (List.mem_cons_of_mem _ (ih h))
  case case4 fuel t name after hcut ih =>
      exact List.mem_cons_of_mem _ (List.mem_cons_of_mem _ (mem_of_cutFirst? hcut (ih (hgroup h))))
  case case5 fuel t hcut ih =>
      rcases htext h with rfl | h
      · exact List.mem_cons_self
      · exact List.mem_cons_of_mem _ (ih h)
  case case6 fuel t _ _ _ hspan ih =>
      rcases htext h with rfl | h
      · exact List.mem_cons_self
      · exact List.mem_cons_of_mem _ (ih h)
  case case7 fuel t _ _ name after _ hspan ih =>
      rw [List.span_eq_takeWhile_dropWhile] at hspan
      obtain ⟨-, rfl⟩ := Prod.mk.inj hspan
      exact List.mem_cons_of_mem _ ((List.dropWhile_suffix _).mem (ih (hgroup h)))
  case case8 fuel c t _ _ _ ih =>
      rcases htext h with rfl | h
      · exact List.mem_cons_self
      · exact List.mem_cons_of_mem _ (ih h)

theorem mem_groupText {t : Text} {m : Match} {index : Nat} {d : Char} (h : d ∈ groupText t m index) :
    d ∈ t := by
  unfold groupText at h
  split at h
  · exact List.mem_of_mem_drop (List.mem_of_mem_take h)
  · exact absurd h List.not_mem_nil

/-- Replacing brings no characters of its own. -/
theorem mem_replaceFirst {p : Pattern} {t template : Text} {d : Char}
    (h : d ∈ p.replaceFirst t template) : d ∈ t ∨ d ∈ template := by
  unfold replaceFirst at h
  split at h
  · rename_i m hm
    rcases List.mem_append.mp h with h | h
    · rcases List.mem_append.mp h with h | h
      · exact .inl (List.mem_of_mem_take h)
      · obtain ⟨piece, hpiece, hd⟩ := List.mem_flatMap.mp h
        cases piece with
        | text u => exact .inr (mem_of_mem_templatePieces hpiece hd)
        | group name =>
            dsimp only at hd
            split at hd
            · exact .inl (mem_groupText hd)
            · exact absurd hd List.not_mem_nil
    · exact .inl (List.mem_of_mem_drop h)
  · exact .inl h

end Regex

namespace Declaration

open Typings.Path

/-! ## The rules of a set -/

theorem applies_of_resolve? {aliases : Alias.Set} {s : Text} {rule : Alias.Rule}
    (h : aliases.resolve? s = some rule) : rule.applies s = true :=
  List.find?_some (p := fun r : Alias.Rule => r.applies s) (find?_of_resolve? h)

/-- What a literal rule leaves of a specifier, with the slash that the literal keeps. -/
def literalRest (find rest : Text) : Text := if find.endsWith "/" then "/" ++ rest else rest

theorem glued_literalRest {find s : Text} (h : Alias.literalMatches find s = true) :
    ∃ rest, s = find ++ rest ∧ Glued (literalRest find rest) := by
  unfold Alias.literalMatches at h
  split at h
  · rename_i rest hrest
    refine ⟨rest, (List.isPrefixOf?_eq_some_iff_append_eq.mp hrest).symm, ?_⟩
    unfold literalRest
    split
    · exact fun c hc => (Option.some.inj hc).symm
    · rename_i hend
      simp only [hend, Bool.or_false, Bool.or_eq_true, List.isEmpty_iff, Text.startsWith_iff] at h
      rcases h with rfl | ⟨u, rfl⟩
      · exact fun c hc => absurd hc (by simp)
      · exact fun c hc => (Option.some.inj hc).symm
  · exact absurd h (by simp)

/-- A literal rule puts the rest of the specifier behind its target. -/
theorem aliasTarget_literal {rule : Alias.Rule} {find : Text} (hfind : rule.find = .literal find)
    (dir : Path) (rest : Text) :
    aliasTarget dir rule (find ++ rest) = seenFrom dir rule.replacement ++ literalRest find rest := by
  simp only [aliasTarget, Alias.Rule.apply, hfind, List.drop_left, literalRest]
  split
  · exact List.append_assoc _ _ _
  · rfl

section

variable {file : Path} {rule : Alias.Rule} {s : Text} (hfile : file.isAbsolute = true)
  (hroot : file.components ≠ [.root])

include hfile hroot

theorem pointsAt_aliasTarget_literal {find : Text} (happlies : rule.applies s = true)
    (hfind : rule.find = .literal find) (hplain : '\\' ∉ rule.replacement)
    (habs : (⟨rule.replacement⟩ : Path).isAbsolute = true) :
    ∃ rest, s = find ++ rest ∧ PointsAt file.parentDir (aliasTarget file.parentDir rule s)
      ⟨rule.replacement ++ literalRest find rest⟩ := by
  rw [Alias.Rule.applies, hfind] at happlies
  obtain ⟨rest, rfl, hglued⟩ := glued_literalRest happlies
  refine ⟨rest, rfl, ?_⟩
  rw [aliasTarget_literal hfind]
  exact pointsAt_seenFrom habs (isAbsolute_parentDir hfile hroot) hplain hglued

theorem pointsAt_aliasTarget_pattern {p : Regex.Pattern} (hfind : rule.find = .pattern p)
    (hs : '\\' ∉ s) (hplain : '\\' ∉ rule.replacement)
    (habs : (⟨rule.apply s rule.replacement⟩ : Path).isAbsolute = true) :
    PointsAt file.parentDir (aliasTarget file.parentDir rule s) ⟨rule.apply s rule.replacement⟩ := by
  have htarget : aliasTarget file.parentDir rule s
      = seenFrom file.parentDir (rule.apply s rule.replacement) := by
    rw [aliasTarget, hfind]
  have hslash : '\\' ∉ rule.apply s rule.replacement := by
    rw [Alias.Rule.apply, hfind]
    exact fun h => (Regex.mem_replaceFirst h).elim hs hplain
  have hpoints := pointsAt_seenFrom habs (isAbsolute_parentDir hfile hroot) hslash (t := [])
    (fun c hc => absurd hc (by simp))
  rw [List.append_nil, List.append_nil] at hpoints
  rw [htarget]
  exact hpoints

/-- **A resolved alias points at its target.** Every specifier of a text that a rule recognizes is written
    as one that starts with a dot segment.  Seen from the directory of the file it leads to the rule's
    target with the rest of the specifier behind it, or, for a pattern, to the filled-in template. -/
theorem pointsAt_resolveAliases (aliases : Alias.Set) :
    ∃ written : Text → Text,
      (∀ content, resolveAliases file aliases content
        = ((Import.scan content).mapSites (Import.Site.redirect written)).text) ∧
      ∀ s rule, aliases.resolve? s = some rule → '\\' ∉ s → '\\' ∉ rule.replacement →
        (∀ find, rule.find = .literal find → (⟨rule.replacement⟩ : Path).isAbsolute = true →
          ∃ rest, s = find ++ rest ∧ PointsAt file.parentDir (written s)
            ⟨if find.endsWith "/" then rule.replacement ++ "/" ++ rest else rule.replacement ++ rest⟩) ∧
        ∀ p, rule.find = .pattern p → (⟨rule.apply s rule.replacement⟩ : Path).isAbsolute = true →
          PointsAt file.parentDir (written s) ⟨rule.apply s rule.replacement⟩ := by
  refine ⟨resolveSpecifier file.parentDir aliases, fun _ => rfl, fun s rule hr hs hplain => ?_⟩
  have hwritten : resolveSpecifier file.parentDir aliases s = aliasTarget file.parentDir rule s := by
    rw [resolveSpecifier, hr]
  rw [hwritten]
  constructor
  · intro find hfind habs
    obtain ⟨rest, hrest, hpoints⟩ :=
      pointsAt_aliasTarget_literal hfile hroot (applies_of_resolve? hr) hfind hplain habs
    refine ⟨rest, hrest, ?_⟩
    rw [literalRest] at hpoints
    split
    · rename_i hend
      rwa [if_pos hend, ← List.append_assoc] at hpoints
    · rename_i hend
      rwa [if_neg hend] at hpoints
  · intro p hfind habs
    exact pointsAt_aliasTarget_pattern hfile hroot hfind hs hplain habs

end

/-- A literal that ends in a slash, with a rest that starts with one and climbs out again. -/
theorem pointsAt_resolveAliases_climbing :
    ∃ written : Text → Text,
      resolveAliases "/p/src/ui/button.d.ts" ⟨[⟨.literal "@/", "/p/src/lib"⟩], []⟩ "import '@//x/../../y'"
          = "import '" ++ written "@//x/../../y" ++ "'" ∧
        PointsAt "/p/src/ui" (written "@//x/../../y") "/p/src/lib//x/../../y" := by
  obtain ⟨written, htext, hpoints⟩ := @pointsAt_resolveAliases "/p/src/ui/button.d.ts" (by decide)
    (by decide) ⟨[⟨.literal "@/", "/p/src/lib"⟩], []⟩
  refine ⟨written, ?_, ?_⟩
  · rw [htext]
    have hscan : Import.scan "import '@//x/../../y'" = ⟨[([], ⟨.sideEffect, .importing, false, "import '",
        [], [], "@//x/../../y", "'"⟩)], []⟩ := by decide +kernel
    rw [hscan]
    simp [Import.Segments.mapSites, Import.Segments.text, Import.Site.redirect, Import.Site.text]
  · obtain ⟨rest, hrest, hpoints⟩ :=
      (hpoints "@//x/../../y" _ rfl (by decide) (by decide)).1 _ rfl (by decide)
    have hsplit : ("@/" : Text) ++ "/x/../../y" = "@/" ++ rest := hrest
    obtain rfl := List.append_cancel_left hsplit
    exact hpoints

end Declaration

end Typings
