import Typings.Declaration
import Typings.Proofs.Import.Completeness
import Typings.Proofs.Path.Relative

/-!
# `Simulation` — steps on texts as steps on items

The steps that declaration text goes through cut the text and put it together again.  On text written
item by item they do what one would do to the items: an import for effects alone is dropped as a whole,
and a specifier is replaced inside its quotes.  The second step scans the output of the first, which is
again written item by item.

* `Text.Bare`: texts that stand between quotes of either kind.
* `Item.isSideEffect`, `Item.redirect?`: the two steps on one item; `Item.rewritten?` on a list.
* `removeSideEffects_render`, `resolveAliases_render`: each step on the text of items.
* `run_render`: both in order.
-/

namespace Typings

/-! ## Texts between quotes -/

/-- A text without quotes, backslashes and line feeds, which both kinds of quotes admit. -/
def Text.Bare (t : Text) : Prop := ∀ c ∈ t, c ≠ '\'' ∧ c ≠ '"' ∧ c ≠ '\\' ∧ c ≠ '\n'

instance (t : Text) : Decidable t.Bare := inferInstanceAs (Decidable (∀ c ∈ t, _))

theorem Text.Bare.append {s t : Text} (hs : s.Bare) (ht : t.Bare) : (s ++ t : Text).Bare :=
  fun c hc => (List.mem_append.mp hc).elim (hs c) (ht c)

theorem Text.Bare.drop {t : Text} (h : t.Bare) (n : Nat) : Text.Bare (t.drop n) :=
  fun c hc => h c (List.mem_of_mem_drop hc)

namespace Import

theorem admits_of_bare {t : Text} (h : t.Bare) (q : Quote) : ∀ c ∈ t, q.admits c := by
  intro c hc
  obtain ⟨hs, hd, hb, hn⟩ := h c hc
  cases q with
  | single => exact ⟨hs, hb, hn⟩
  | double => exact ⟨hd, hb, hn⟩

/-! ## The steps on items -/

/-- The literal with another body between the same quotes, if they admit it. -/
def Literal.withBody? (q : Literal) (t : Text) : Option Literal :=
  if h : ∀ c ∈ t, q.quote.admits c then some ⟨q.quote, t, h⟩ else none

namespace Item

/-- An import for its effects alone. -/
def isSideEffect : Item → Bool
  | .sideEffect _ => true
  | _ => false

/-- The literal that names a module. -/
def source? : Item → Option Literal
  | .importFrom _ _ q | .exportFrom _ _ q | .sideEffect q | .reference _ q _ => some q
  | _ => none

/-- The item with its specifier replaced, if the new one can stand between its quotes; an item that
    names no module stays as it is. -/
def redirect? (f : Text → Text) : Item → Option Item
  | .importFrom ty c q => (q.withBody? (f q.body)).map (.importFrom ty c)
  | .exportFrom ty c q => (q.withBody? (f q.body)).map (.exportFrom ty c)
  | .sideEffect q => (q.withBody? (f q.body)).map .sideEffect
  | .reference n q m => (q.withBody? (f q.body)).map (.reference n · m)
  | i => some i

/-- A list of items without its imports for effects alone and with every specifier replaced. -/
def rewritten? (f : Text → Text) (items : List Item) : Option (List Item) :=
  (items.filter fun i => !i.isSideEffect).mapM (redirect? f)

end Item

/-! ## Cutting and putting together -/

namespace Segments

@[simp] theorem dropSites_prepend (p : Site → Bool) (t : Text) (s : Segments) :
    (s.prepend t).dropSites p = t ++ s.dropSites p := by
  obtain ⟨sites, rest⟩ := s
  cases sites with
  | nil => simp [prepend, dropSites]
  | cons g sites => cases h : p g.2 <;> simp [prepend, dropSites, h]

theorem dropSites_consSite (p : Site → Bool) (site : Site) (s : Segments) :
    (s.consSite site).dropSites p = (if p site then [] else site.text) ++ s.dropSites p := by
  cases h : p site <;> simp [consSite, dropSites, h]

@[simp] theorem mapSites_prepend (f : Site → Site) (t : Text) (s : Segments) :
    (s.prepend t).mapSites f = (s.mapSites f).prepend t := by
  obtain ⟨sites, rest⟩ := s
  cases sites with
  | nil => rfl
  | cons g sites => rfl

@[simp] theorem mapSites_consSite (f : Site → Site) (site : Site) (s : Segments) :
    (s.consSite site).mapSites f = (s.mapSites f).consSite (f site) := rfl

end Segments

/-- Dropping the sites for effects alone takes the whole line of such an item and no other. -/
theorem dropSites_onto (i : Item) (s : Segments) :
    (i.onto s).dropSites (·.kind == .sideEffect)
      = (if i.isSideEffect then [] else i.line) ++ s.dropSites (·.kind == .sideEffect) := by
  cases h : i.pieces? with
  | none =>
      have hi : i.isSideEffect = false := by
        cases i with
        | sideEffect q => exact absurd h (by simp [Item.pieces?])
        | _ => rfl
      rw [Item.onto_of_none h, Segments.dropSites_prepend, hi]
      rfl
  | some p =>
      obtain ⟨before, site, after⟩ := p
      rw [Item.onto_of_some h, Segments.dropSites_prepend, Segments.dropSites_consSite,
        Segments.dropSites_prepend]
      have hline := Item.line_of_pieces h
      cases i with
      | sideEffect q => cases Option.some.inj h; rfl
      | importFrom ty c q => cases Option.some.inj h; rw [hline]; simp [Item.isSideEffect, clauseSite]
      | exportFrom ty c q => cases Option.some.inj h; rw [hline]; simp [Item.isSideEffect, clauseSite]
      | reference n q m => cases Option.some.inj h; rw [hline]; simp [Item.isSideEffect, dynamicSite]
      | _ => exact absurd h (by simp [Item.pieces?])

/-- A site with its specifier replaced. -/
def Site.redirect (f : Text → Text) (s : Site) : Site := { s with specifier := f s.specifier }

theorem Literal.withBody?_eq_some {q q' : Literal} {t : Text} (h : q.withBody? t = some q') :
    q'.quote = q.quote ∧ q'.body = t := by
  unfold Literal.withBody? at h
  split at h
  · cases Option.some.inj h
    exact ⟨rfl, rfl⟩
  · exact absurd h (by simp)

/-- Only the specifier of the cut changes with an item. -/
theorem Item.pieces?_redirect? {f : Text → Text} {i j : Item} (h : i.redirect? f = some j) :
    j.pieces? = i.pieces?.map (fun p => (p.1, p.2.1.redirect f, p.2.2)) ∧
      (i.pieces? = none → j = i) := by
  cases i with
  | importFrom ty c q =>
      obtain ⟨q', hq, rfl⟩ := Option.map_eq_some_iff.mp h
      obtain ⟨hquote, hbody⟩ := Literal.withBody?_eq_some hq
      refine ⟨?_, fun hn => absurd hn (by simp [Item.pieces?])⟩
      simp [Item.pieces?, Site.redirect, clauseSite, hquote, hbody]
  | exportFrom ty c q =>
      obtain ⟨q', hq, rfl⟩ := Option.map_eq_some_iff.mp h
      obtain ⟨hquote, hbody⟩ := Literal.withBody?_eq_some hq
      refine ⟨?_, fun hn => absurd hn (by simp [Item.pieces?])⟩
      simp [Item.pieces?, Site.redirect, clauseSite, hquote, hbody]
  | sideEffect q =>
      obtain ⟨q', hq, rfl⟩ := Option.map_eq_some_iff.mp h
      obtain ⟨hquote, hbody⟩ := Literal.withBody?_eq_some hq
      refine ⟨?_, fun hn => absurd hn (by simp [Item.pieces?])⟩
      simp [Item.pieces?, Site.redirect, sideEffectSite, hquote, hbody]
  | reference n q m =>
      obtain ⟨q', hq, rfl⟩ := Option.map_eq_some_iff.mp h
      obtain ⟨hquote, hbody⟩ := Literal.withBody?_eq_some hq
      refine ⟨?_, fun hn => absurd hn (by simp [Item.pieces?])⟩
      simp [Item.pieces?, Site.redirect, dynamicSite, hquote, hbody]
  | exportNames bs => cases Option.some.inj h; exact ⟨rfl, fun _ => rfl⟩
  | declaration d => cases Option.some.inj h; exact ⟨rfl, fun _ => rfl⟩
  | lineComment t ht => cases Option.some.inj h; exact ⟨rfl, fun _ => rfl⟩
  | blockComment t ht => cases Option.some.inj h; exact ⟨rfl, fun _ => rfl⟩

theorem mapSites_onto {f : Text → Text} {i j : Item} (h : i.redirect? f = some j) (s : Segments) :
    (i.onto s).mapSites (Site.redirect f) = j.onto (s.mapSites (Site.redirect f)) := by
  obtain ⟨hpieces, hsame⟩ := Item.pieces?_redirect? h
  cases hi : i.pieces? with
  | none =>
      obtain rfl := hsame hi
      rw [Item.onto_of_none hi, Item.onto_of_none hi, Segments.mapSites_prepend]
  | some p =>
      obtain ⟨before, site, after⟩ := p
      rw [hi, Option.map_some] at hpieces
      rw [Item.onto_of_some hi, Item.onto_of_some hpieces, Segments.mapSites_prepend,
        Segments.mapSites_consSite, Segments.mapSites_prepend]

/-- Replacing the specifiers in the text of items is replacing them in the items. -/
theorem mapSites_scan_render {f : Text → Text} {items kept : List Item}
    (h : items.mapM (Item.redirect? f) = some kept) :
    (scan (render items)).mapSites (Site.redirect f) = scan (render kept) := by
  rw [scan_render, scan_render]
  induction items generalizing kept with
  | nil =>
      cases Option.some.inj h
      rfl
  | cons i items ih =>
      simp only [List.mapM_cons, Option.bind_eq_bind, Option.bind_eq_some_iff] at h
      obtain ⟨j, hj, js, hjs, hk⟩ := h
      cases Option.some.inj hk
      rw [List.foldr_cons, List.foldr_cons, mapSites_onto hj, ih hjs]

/-! ## Items between quotes -/

theorem Item.redirect?_isSome {f : Text → Text} (hf : ∀ t : Text, t.Bare → (f t).Bare) {i : Item}
    (h : ∀ q ∈ i.source?, q.body.Bare) : ∃ j, i.redirect? f = some j := by
  have hbody (q : Literal) (hq : q.body.Bare) : ∃ q', q.withBody? (f q.body) = some q' :=
    ⟨_, dif_pos (admits_of_bare (hf _ hq) q.quote)⟩
  cases i with
  | importFrom ty c q =>
      obtain ⟨q', hq⟩ := hbody q (h q rfl)
      exact ⟨_, congrArg (Option.map (Item.importFrom ty c)) hq⟩
  | exportFrom ty c q =>
      obtain ⟨q', hq⟩ := hbody q (h q rfl)
      exact ⟨_, congrArg (Option.map (Item.exportFrom ty c)) hq⟩
  | sideEffect q =>
      obtain ⟨q', hq⟩ := hbody q (h q rfl)
      exact ⟨_, congrArg (Option.map Item.sideEffect) hq⟩
  | reference n q m =>
      obtain ⟨q', hq⟩ := hbody q (h q rfl)
      exact ⟨_, congrArg (Option.map (Item.reference n · m)) hq⟩
  | exportNames bs => exact ⟨_, rfl⟩
  | declaration d => exact ⟨_, rfl⟩
  | lineComment t ht => exact ⟨_, rfl⟩
  | blockComment t ht => exact ⟨_, rfl⟩

theorem Item.rewritten?_isSome {f : Text → Text} (hf : ∀ t : Text, t.Bare → (f t).Bare)
    {items : List Item} (h : ∀ i ∈ items, ∀ q ∈ i.source?, q.body.Bare) :
    ∃ kept, Item.rewritten? f items = some kept := by
  have hmap (l : List Item) (hl : ∀ i ∈ l, i ∈ items) : ∃ kept, l.mapM (Item.redirect? f) = some kept := by
    induction l with
    | nil => exact ⟨[], rfl⟩
    | cons i l ih =>
        obtain ⟨j, hj⟩ := Item.redirect?_isSome hf (h i (hl i List.mem_cons_self))
        obtain ⟨js, hjs⟩ := ih fun k hk => hl k (List.mem_cons_of_mem i hk)
        exact ⟨j :: js, by rw [List.mapM_cons, hj, hjs]; rfl⟩
  exact hmap _ fun i hi => (List.mem_filter.mp hi).1

end Import

namespace Declaration

open Import

/-! ## The steps on text -/

theorem removeSideEffects_render (items : List Item) :
    removeSideEffects (render items) = render (items.filter fun i => !i.isSideEffect) := by
  rw [removeSideEffects, scan_render]
  induction items with
  | nil => rfl
  | cons i items ih =>
      rw [List.foldr_cons, dropSites_onto, ih]
      cases h : i.isSideEffect with
      | true => rw [List.filter_cons_of_neg (by simp [h])]; rfl
      | false => rw [List.filter_cons_of_pos (by simp [h])]; rfl

theorem resolveAliases_render {file : Path} {aliases : Alias.Set} {items kept : List Item}
    (h : items.mapM (Item.redirect? (resolveSpecifier file.parentDir aliases)) = some kept) :
    resolveAliases file aliases (render items) = render kept := by
  have hs := congrArg Segments.text (mapSites_scan_render h)
  rw [text_scan] at hs
  exact hs

/-! ## What an alias gives -/

theorem bare_toSlash {p : Path} (h : p.text.Bare) : Text.Bare p.toSlash := by
  intro c hc
  obtain ⟨d, hd, rfl⟩ := List.mem_map.mp hc
  split
  · decide
  · exact h d hd

theorem bare_dotRelative {t : Text} (h : t.Bare) : (dotRelative t).Bare := by
  unfold dotRelative
  split
  · decide
  · split
    · exact h
    · exact .append (by decide) h

/-- The characters of a folded target come from the target; nothing of the directory is spelled. -/
theorem bare_seenFrom {target : Text} (dir : Path) (h : target.Bare) : (seenFrom dir target).Bare := by
  refine bare_dotRelative (bare_toSlash fun c hc => ?_)
  have hmem : c ∈ target ∨ c = '/' ∨ c = '.' := by
    split at hc
    · exact Path.mem_text_relative hc
    · exact Path.mem_text_normalize hc
  rcases hmem with hc | rfl | rfl
  · exact h c hc
  · decide
  · decide

/-- The rule that is taken is the first of the set that recognizes the specifier. -/
theorem find?_of_resolve? {aliases : Alias.Set} {s : Text} {rule : Alias.Rule}
    (h : aliases.resolve? s = some rule) : aliases.rules.find? (·.applies s) = some rule := by
  unfold Alias.Set.resolve? at h
  split at h
  · rename_i r hfind
    split at h
    · exact absurd h (by simp)
    · cases Option.some.inj h
      exact hfind
  · exact absurd h (by simp)

/-- Literal rules with plain targets keep specifiers plain. -/
theorem bare_resolveSpecifier {aliases : Alias.Set} {t : Text} (dir : Path)
    (hrules : ∀ r ∈ aliases.rules, (∃ u, r.find = .literal u) ∧ r.replacement.Bare) (ht : t.Bare) :
    (resolveSpecifier dir aliases t).Bare := by
  unfold resolveSpecifier
  split
  · rename_i rule hr
    obtain ⟨⟨u, hu⟩, hb⟩ := hrules rule (List.mem_of_find?_eq_some (find?_of_resolve? hr))
    have hseen := bare_seenFrom dir hb
    simp only [aliasTarget, Alias.Rule.apply, hu]
    split
    · exact .append (.append hseen (by decide)) (ht.drop _)
    · exact .append hseen (ht.drop _)
  · exact ht

/-- **The steps on text are the steps on items.** Imports for effects alone are dropped, every other
    specifier becomes what its alias gives, if it has one, and nothing else changes.  The rules recognize
    literals; targets and specifiers can stand between quotes.  The file may be any: of its directory
    nothing is spelled. -/
theorem run_render {aliases : Alias.Set} {items : List Item} (file : Path)
    (hrules : ∀ r ∈ aliases.rules, (∃ t, r.find = .literal t) ∧ r.replacement.Bare)
    (hitems : ∀ i ∈ items, ∀ q ∈ i.source?, q.body.Bare) :
    ∃ kept, Item.rewritten? (resolveSpecifier file.parentDir aliases) items = some kept ∧
      Steps.run ⟨aliases, true, false⟩ file (render items) = render kept := by
  have hbare (t : Text) (ht : t.Bare) : (resolveSpecifier file.parentDir aliases t).Bare :=
    bare_resolveSpecifier _ hrules ht
  obtain ⟨kept, hkept⟩ := Item.rewritten?_isSome hbare hitems
  refine ⟨kept, hkept, ?_⟩
  have hrun : Steps.run ⟨aliases, true, false⟩ file (render items)
      = resolveAliases file aliases (removeSideEffects (render items)) := rfl
  rw [hrun, removeSideEffects_render, resolveAliases_render hkept]

/-- A file with a style sheet, an aliased import and an aliased reference. -/
def buttonItems : List Item :=
  let a : Name := ⟨⟨"a", by decide, by decide, by decide, by decide⟩, by decide, by decide⟩
  let b : Name := ⟨⟨"B", by decide, by decide, by decide, by decide⟩, by decide, by decide⟩
  [.importFrom false (.named [⟨false, a, none⟩]) ⟨.single, "@/utils/a", by decide⟩,
   .sideEffect ⟨.double, "./button.css", by decide⟩,
   .lineComment " see '@/utils'" (by decide),
   .reference a ⟨.single, "@/types", by decide⟩ b]

theorem run_render_buttonItems :
    Steps.run ⟨⟨[⟨.literal "@", "/p/src"⟩], [.literal "@/keep"]⟩, true, false⟩
        "/p/src/components/button.d.ts" (render buttonItems)
      = ("import \x7b a \x7d from '../utils/a';\n// see '@/utils'\n" ++
          "export declare const a: import('../types').B;\n" : Text) := by
  obtain ⟨kept, hkept, hrun⟩ := @run_render ⟨[⟨.literal "@", "/p/src"⟩], [.literal "@/keep"]⟩
    buttonItems "/p/src/components/button.d.ts"
    (fun r hr => by cases List.mem_singleton.mp hr; exact ⟨⟨_, rfl⟩, by decide⟩) (by decide)
  rw [hrun]
  refine Option.some.inj ((congrArg (Option.map render) hkept).symm.trans ?_)
  repeat rw [Text.toList_literal rfl]
  decide +kernel

end Declaration

end Typings
