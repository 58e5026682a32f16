import Typings.Proofs.Declaration.Redirection
import Typings.Proofs.Declaration.Targets

/-!
# `Idempotence` — resolved aliases are resolved for good

What a literal rule gives starts with a dot, so no literal that starts otherwise recognizes it, and a
second pass finds nothing to do.  It sees the same statements as the first, whatever the text is: the
rule cuts a specifier at a slash, where no escape is open, so the rest still ends at the same quote.

* `isBody_escape`, `isBody_cons`: the body of a string, character by character.
* `IsBody.of_slash`, `IsBody.bare_append`: a body without what stands before a slash, and with a plain
  text in front.
* `fits_literal`: what a literal rule gives stands between the same quotes.
* `resolveAliases_resolveAliases`: resolving twice is resolving once.
-/

namespace Typings.Import

/-! ## Bodies of strings -/

theorem isBody_escape {q c : Char} {body : Text} : IsBody q ('\\' :: c :: body) ↔ IsBody q body := by
  have hread (t : Text) : stringBody q ('\\' :: c :: body ++ q :: t)
      = ('\\' :: c :: (stringBody q (body ++ q :: t)).1, (stringBody q (body ++ q :: t)).2) := rfl
  refine forall_congr' fun t => ?_
  rw [hread]
  constructor
  · intro h
    obtain ⟨hbody, hrest⟩ := Prod.mk.inj h
    exact Prod.ext (List.cons.inj (List.cons.inj hbody).2).2 hrest
  · intro h
    rw [h]

theorem isBody_cons {q c : Char} {body : Text} (hc : c ≠ '\\') :
    IsBody q (c :: body) ↔ c ≠ q ∧ c ≠ '\n' ∧ IsBody q body := by
  have hread (t : Text) : stringBody q (c :: body ++ q :: t)
      = if c == q || c == '\n' then ([], c :: (body ++ q :: t))
        else (c :: (stringBody q (body ++ q :: t)).1, (stringBody q (body ++ q :: t)).2) := by
    rw [List.cons_append, stringBody]
    exact fun _ _ h _ => hc h
  constructor
  · intro h
    have hstop : (c == q || c == '\n') = false := by
      by_contra hstop
      have hempty := h []
      rw [hread, if_pos ((Bool.not_eq_false _).mp hstop)] at hempty
      exact List.cons_ne_nil _ _ (Prod.mk.inj hempty).1.symm
    have hne : c ≠ q ∧ c ≠ '\n' := by simpa using hstop
    refine ⟨hne.1, hne.2, fun t => ?_⟩
    have htail := h t
    rw [hread, hstop] at htail
    obtain ⟨hbody, hrest⟩ := Prod.mk.inj htail
    exact Prod.ext (List.cons.inj hbody).2 hrest
  · rintro ⟨hq, hn, h⟩ t
    rw [hread, h t, if_neg (by simp [hq, hn])]

theorem isBody_nil {q : Char} (hq : isQuote q = true) : IsBody q [] := isBody_of_bare hq (by simp)

/-- A slash is no part of an escape that goes on behind it. -/
theorem IsBody.of_slash {q : Char} (hq : isQuote q = true) {a body : Text}
    (h : IsBody q (a ++ '/' :: body)) : IsBody q ('/' :: body) := by
  have hslash : '/' ≠ q := by
    rintro rfl
    exact absurd hq (by decide)
  induction hn : a.length using Nat.strongRecOn generalizing a with
  | ind n ih =>
      cases a with
      | nil => exact h
      | cons c a =>
          by_cases hc : c = '\\'
          · subst hc
            cases a with
            | nil => exact (isBody_cons (by decide)).mpr ⟨hslash, by decide, isBody_escape.mp h⟩
            | cons d a =>
                refine ih a.length ?_ (isBody_escape.mp h) rfl
                simp only [← hn, List.length_cons]
                omega
          · exact ih a.length (by rw [← hn]; simp) ((isBody_cons hc).mp h).2.2 rfl

theorem IsBody.bare_append {q : Char} (hq : isQuote q = true) {t body : Text} (ht : t.Bare)
    (h : IsBody q body) : IsBody q (t ++ body) := by
  induction t with
  | nil => exact h
  | cons c t ih =>
      obtain ⟨⟨hs, hd, hb, hn⟩, ht⟩ := List.forall_mem_cons.mp ht
      have hne : c ≠ q := by
        rintro rfl
        simp [isQuote, hs, hd] at hq
      exact (isBody_cons hb).mpr ⟨hne, hn, ih ht⟩

end Typings.Import

namespace Typings.Declaration

open Import Typings.Path

/-! ## Literal rules -/

/-- **What a literal rule gives stands between the same quotes** as the specifier, even if there are
    escapes in the specifier. -/
theorem fits_literal {rule : Alias.Rule} {find s : Text} (hfind : rule.find = .literal find)
    (hbare : rule.replacement.Bare) (happlies : rule.applies s = true) (dir : Path) :
    Fits s (aliasTarget dir rule s) := by
  intro q hq hbody
  rw [Alias.Rule.applies, hfind] at happlies
  obtain ⟨rest, rfl, hglued⟩ := glued_literalRest happlies
  rw [aliasTarget_literal hfind]
  refine IsBody.bare_append hq (bare_seenFrom dir hbare) ?_
  unfold literalRest at hglued ⊢
  split
  · next hend =>
      obtain ⟨front, rfl⟩ := Text.endsWith_iff.mp hend
      rw [List.append_assoc] at hbody
      exact hbody.of_slash hq
  · next hend =>
      rw [if_neg hend] at hglued
      cases rest with
      | nil => exact isBody_nil hq
      | cons c rest =>
          obtain rfl := hglued c rfl
          exact hbody.of_slash hq

theorem head?_of_dotRelative {w : Text} (h : DotRelative w) : w.head? = some '.' := by
  rcases h with rfl | rfl | ⟨t, rfl⟩ | ⟨t, rfl⟩ <;> rfl

/-- What a literal rule gives starts with a dot. -/
theorem head?_aliasTarget {rule : Alias.Rule} {find s : Text} (hfind : rule.find = .literal find)
    (happlies : rule.applies s = true) (dir : Path) : (aliasTarget dir rule s).head? = some '.' := by
  rw [Alias.Rule.applies, hfind] at happlies
  obtain ⟨rest, rfl, hglued⟩ := glued_literalRest happlies
  rw [aliasTarget_literal hfind]
  exact head?_of_dotRelative (DotRelative.glue (dotRelative_dotRelative _) hglued)

/-- A literal that starts with another character recognizes nothing that starts with a dot. -/
theorem literalMatches_of_dot {find t : Text} (hne : find ≠ []) (hdot : find.head? ≠ some '.')
    (ht : t.head? = some '.') : Alias.literalMatches find t = false := by
  obtain ⟨c, find, rfl⟩ := List.exists_cons_of_ne_nil hne
  obtain ⟨t, rfl⟩ := List.head?_eq_some_iff.mp ht
  have hc : (c == '.') = false := beq_eq_false_iff_ne.mpr fun h => hdot (congrArg some h)
  rw [Alias.literalMatches, List.isPrefixOf?, hc]
  rfl

/-! ## Sets of literal rules -/

section

variable {aliases : Alias.Set}
  (hrules : ∀ r ∈ aliases.rules,
    (∃ t, r.find = .literal t ∧ t ≠ [] ∧ t.head? ≠ some '.') ∧ r.replacement.Bare)

include hrules

/-- No rule is for what starts with a dot. -/
theorem resolve?_of_dot {t : Text} (ht : t.head? = some '.') : aliases.resolve? t = none := by
  have hnone : aliases.rules.find? (·.applies t) = none := by
    rw [List.find?_eq_none]
    intro r hr
    obtain ⟨⟨find, hfind, hne, hdot⟩, -⟩ := hrules r hr
    rw [Alias.Rule.applies, hfind]
    simp [literalMatches_of_dot hne hdot ht]
  rw [Alias.Set.resolve?, hnone]

/-- A specifier that is resolved stays as it is. -/
theorem resolveSpecifier_resolveSpecifier (dir : Path) (s : Text) :
    resolveSpecifier dir aliases (resolveSpecifier dir aliases s) = resolveSpecifier dir aliases s := by
  cases hr : aliases.resolve? s with
  | none =>
      have hkept : resolveSpecifier dir aliases s = s := by rw [resolveSpecifier, hr]
      rw [hkept, hkept]
  | some rule =>
      obtain ⟨⟨find, hfind, -⟩, -⟩ := hrules rule (List.mem_of_find?_eq_some (find?_of_resolve? hr))
      have hgiven : resolveSpecifier dir aliases s = aliasTarget dir rule s := by rw [resolveSpecifier, hr]
      have hnone := resolve?_of_dot hrules (head?_aliasTarget hfind (applies_of_resolve? hr) dir)
      rw [hgiven, resolveSpecifier, hnone]

theorem fits_resolveSpecifier_literal (dir : Path) (s : Text) : Fits s (resolveSpecifier dir aliases s) := by
  cases hr : aliases.resolve? s with
  | none =>
      have hkept : resolveSpecifier dir aliases s = s := by rw [resolveSpecifier, hr]
      rw [hkept]
      exact fun _ _ hbody => hbody
  | some rule =>
      obtain ⟨⟨find, hfind, -⟩, hbare⟩ := hrules rule (List.mem_of_find?_eq_some (find?_of_resolve? hr))
      have hgiven : resolveSpecifier dir aliases s = aliasTarget dir rule s := by rw [resolveSpecifier, hr]
      rw [hgiven]
      exact fits_literal hfind hbare (applies_of_resolve? hr) dir

/-- **Resolving aliases twice is resolving them once.** The rules recognize literals, which are not empty
    and do not start with a dot, and their targets can stand between quotes; the text may be any, and so
    may the file and the exclusions. -/
theorem resolveAliases_resolveAliases (file : Path) (content : Text) :
    resolveAliases file aliases (resolveAliases file aliases content) = resolveAliases file aliases content := by
  let redirect := Site.redirect (resolveSpecifier file.parentDir aliases)
  have hscan : scan (resolveAliases file aliases content) = (scan content).mapSites redirect :=
    (scanFrom_redirect fun s _ => fits_resolveSpecifier_literal hrules file.parentDir s.specifier).2
  have hsite (s : Site) : redirect (redirect s) = redirect s :=
    congrArg s.withSpecifier (resolveSpecifier_resolveSpecifier hrules file.parentDir s.specifier)
  show ((scan (resolveAliases file aliases content)).mapSites redirect).text
    = ((scan content).mapSites redirect).text
  rw [hscan, Segments.mapSites, Segments.mapSites, List.map_map]
  refine congrArg (fun sites => Segments.text ⟨sites, (scan content).rest⟩) (List.map_congr_left fun p _ => ?_)
  exact congrArg (p.1, ·) (hsite p.2)

end

/-- An escaped quote in an aliased specifier, an excluded specifier, and a literal that is a target. -/
def resolvedText : Text :=
  "import a from '@/it\\'s'; export * from \"@/keep\"; x.import('@'), import( '~' ), import('./@')"

theorem resolveAliases_resolveAliases_escaped :
    let aliases := Alias.Set.ofRules [⟨.literal "@", "/p/src"⟩, ⟨.literal "~", "@/lib"⟩] [.literal "@/keep"]
    let resolved := resolveAliases "/p/src/ui/a.d.ts" aliases resolvedText
    resolved = "import a from '../it\\'s'; export * from \"@/keep\"; x.import('@'), import( './@/lib' ), import('./@')" ∧
      resolveAliases "/p/src/ui/a.d.ts" aliases resolved = resolved := by
  refine ⟨?_, resolveAliases_resolveAliases (fun r hr => ?_) "/p/src/ui/a.d.ts" resolvedText⟩
  · unfold resolvedText
    repeat rw [Text.toList_literal rfl]
    decide +kernel
  rcases List.mem_cons.mp (List.mem_filter.mp hr).1 with rfl | hr
  · exact ⟨⟨_, rfl, by decide, by decide⟩, by decide⟩
  · obtain rfl := List.mem_singleton.mp hr
    exact ⟨⟨_, rfl, by decide, by decide⟩, by decide⟩

end Typings.Declaration
