import Mathlib.Data.List.Forall2
import Typings.Proofs.Declaration.Simulation
import Typings.Proofs.Import.Alike

/-!
# `Redirection` — resolved aliases leave every statement where it is

Resolving the aliases of a text puts other bodies between the quotes of its specifiers.  The new text is
alike to the old one, so scanning it gives up and goes on at the same places, also where a statement is
broken off: it has the same sites, with the resolved specifiers.

* `LexedSite.alike`, `siteAt?_redirect`: one site with another specifier.
* `scanFrom_redirect`: every site of a text with another specifier, by induction along the scan.
* `outside`: the bytes of a text outside given ranges; `outside_specifiers` for the specifiers.
* `redirected_resolveAliases`: what resolving the aliases of a text does to its statements.
-/

namespace Typings.Import

/-! ## One site -/

/-- The text stands between the quotes that its specifier stands between. -/
def Fits (body body' : Text) : Prop := ∀ q, isQuote q = true → IsBody q body → IsBody q body'

section

variable {S : Seam} {t rest u : Text} {s : Site} {f : Text → Text} (hf : Fits s.specifier (f s.specifier))
  (hu : AlikeTo S rest u)

include hf hu

theorem LexedSite.alike (h : LexedSite t s rest) : AlikeTo S t ((s.redirect f).text ++ u) := by
  obtain ⟨lead, q, tail, after, hq, hbody, hlead, htail, hbefore, hafter⟩ := h
  have htext : (s.redirect f).text ++ u = lead ++ q :: (f s.specifier ++ q :: (tail ++ u)) := by
    show s.head ++ s.clause ++ s.link ++ f s.specifier ++ s.tail ++ u = _
    rw [hlead, htail]
    simp
  rw [htext]
  exact .prepend hbefore (.string hq hbody (hf q hq hbody) (.prepend hafter hu))

/-- A site keeps its place when its specifier is replaced, in front of a text that is alike up to a seam
    behind the site. -/
theorem siteAt?_redirect {property : Bool} (h : siteAt? property t = some (s, rest))
    (hseam : ¬ AtSeam S t ((s.redirect f).text ++ u))
    (hle : ∀ t' u', S.holds t' u' → t'.length ≤ rest.length) :
    siteAt? property ((s.redirect f).text ++ u) = some (s.redirect f, u) := by
  have hsite := lexedSite_of_siteAt? h
  obtain ⟨body, v, hread, -⟩ := siteAt?_some_of_alike (hsite.alike hf hu) hseam h hle
  -- Both specifiers stand behind the same code, and end at the first quote.
  obtain ⟨-, q, tail, -, hq, hbody, -, htail, -⟩ := hsite
  obtain ⟨-, q', tail', -, -, hbody', -, htail', -⟩ := lexedSite_of_siteAt? hread
  obtain ⟨rfl, rfl⟩ := List.cons.inj (htail.symm.trans htail')
  have hsplit : f s.specifier ++ q :: (tail ++ u) = body ++ q :: (tail ++ v) := by
    simpa [Site.text, Site.redirect, Site.withSpecifier, htail] using siteAt?_append hread
  obtain rfl : f s.specifier = body := (hf q hq hbody).eq hbody' hsplit
  obtain rfl : u = v := by simpa using hsplit
  exact hread

end

/-! ## Every site -/

namespace Segments

/-- The sites of a cut text. -/
def all (s : Segments) : List Site := s.sites.map Prod.snd

@[simp] theorem all_prepend (t : Text) (s : Segments) : (s.prepend t).all = s.all := by
  obtain ⟨sites, rest⟩ := s
  cases sites with
  | nil => rfl
  | cons p sites => rfl

@[simp] theorem all_consSite (site : Site) (s : Segments) : (s.consSite site).all = site :: s.all := rfl

end Segments

/-- **Every specifier replaced.** The new text is alike to the old one and is cut into the same segments,
    up to the specifiers. -/
theorem scanFrom_redirect {f : Text → Text} {property : Bool} {t : Text}
    (hf : ∀ s ∈ (scanFrom property t).all, Fits s.specifier (f s.specifier)) :
    Alike t ((scanFrom property t).mapSites (Site.redirect f)).text ∧
      scanFrom property ((scanFrom property t).mapSites (Site.redirect f)).text
        = (scanFrom property t).mapSites (Site.redirect f) := by
  fun_induction scanFrom property t with
  | case1 => exact ⟨.nil, by rw [scanFrom]; rfl⟩
  | case2 property t hne site rest hs hlt ih =>
      obtain ⟨rfl, -⟩ := exists_of_siteAt? hs
      rw [Segments.all_consSite, List.forall_mem_cons] at hf
      obtain ⟨halike, hscan⟩ := ih hf.2
      have hnew := (lexedSite_of_siteAt? hs).alike hf.1 halike
      rw [Segments.mapSites_consSite, Segments.text_consSite]
      refine ⟨hnew, ?_⟩
      have hkept := siteAt?_redirect hf.1 halike hs not_atSeam_none fun _ _ h => False.elim h
      rw [scanFrom_of_some (hnew.ne_nil hne) hkept, hscan]
  | case3 property t hne hs hlt ih =>
      rw [Segments.all_prepend] at hf
      obtain ⟨halike, hscan⟩ := ih hf
      have hnew := AlikeTo.code hne halike
      rw [Segments.mapSites_prepend, Segments.text_prepend]
      refine ⟨hnew, ?_⟩
      rw [scanFrom_of_none (hnew.ne_nil hne) (siteAt?_none_of_alike hnew not_atSeam_none hs),
        lexeme_congr halike.head?, hscan]

namespace Segments

theorem map_site_located (s : Segments) : s.located.map (·.site) = s.all := by
  have hgo (offset : Nat) (sites : List (Text × Site)) :
      (located.go offset sites).map (·.site) = sites.map Prod.snd := by
    induction sites generalizing offset with
    | nil => rfl
    | cons p sites ih => exact congrArg (p.2 :: ·) (ih _)
  exact hgo 0 s.sites

/-- The places of changed sites go with those of the sites. -/
theorem located_mapSites (f : Site → Site) (s : Segments) :
    List.Forall₂ (fun l l' : Located => l'.site = f l.site) s.located (s.mapSites f).located := by
  have hgo (sites : List (Text × Site)) (a b : Nat) :
      List.Forall₂ (fun l l' : Located => l'.site = f l.site) (located.go a sites)
        (located.go b (sites.map fun p => (p.1, f p.2))) := by
    induction sites generalizing a b with
    | nil => exact .nil
    | cons p sites ih => exact .cons rfl (ih _ _)
  exact hgo s.sites 0 0

end Segments

/-! ## Outside the specifiers -/

/-- The bytes from an offset on that lie outside the ranges, piece by piece. -/
def outside (bytes : List UInt8) (offset : Nat) : List Range → List (List UInt8)
  | [] => [bytes.drop offset]
  | r :: rs => (bytes.drop offset).take (r.start - offset) :: outside bytes r.stop rs

namespace Segments

/-- The texts between the specifiers, with a text in front of the first. -/
def frame (front : Text) : List (Text × Site) → Text → List Text
  | [], rest => [front ++ rest]
  | (gap, s) :: more, rest => (front ++ gap ++ s.head ++ s.clause ++ s.link) :: frame s.tail more rest

theorem frame_redirect (f : Text → Text) (front : Text) (sites : List (Text × Site)) (rest : Text) :
    frame front (sites.map fun p => (p.1, p.2.redirect f)) rest = frame front sites rest := by
  induction sites generalizing front with
  | nil => rfl
  | cons p sites ih => exact congrArg (_ :: ·) (ih _)

theorem outside_go (before front : Text) (sites : List (Text × Site)) (rest : Text) :
    outside (Text.bytes (before ++ (front ++ text ⟨sites, rest⟩))) before.byteSize
        ((located.go (before ++ front : Text).byteSize sites).map (·.specifier))
      = (frame front sites rest).map Text.bytes := by
  induction sites generalizing before front with
  | nil => exact congrArg (fun b : List UInt8 => [b]) (Text.drop_bytes before (front ++ rest))
  | cons p sites ih =>
      obtain ⟨gap, s⟩ := p
      let lead : Text := front ++ gap ++ s.head ++ s.clause ++ s.link
      have hih := ih (before ++ lead ++ s.specifier) s.tail
      have htext : before ++ (front ++ text ⟨(gap, s) :: sites, rest⟩)
          = before ++ lead ++ s.specifier ++ (s.tail ++ text ⟨sites, rest⟩) := by
        simp [text, Site.text, lead]
      have hpiece : ((Text.bytes (before ++ lead ++ s.specifier ++ (s.tail ++ text ⟨sites, rest⟩))).drop
          before.byteSize).take lead.byteSize = Text.bytes lead := by
        rw [List.append_assoc, List.append_assoc, Text.drop_bytes, Text.take_bytes]
      have hstart : (before ++ front : Text).byteSize + gap.byteSize + s.head.byteSize + s.clause.byteSize
          + s.link.byteSize - before.byteSize = lead.byteSize := by
        simp only [lead, Text.byteSize_append]
        omega
      have hstop : (before ++ front : Text).byteSize + gap.byteSize + s.head.byteSize + s.clause.byteSize
          + s.link.byteSize + s.specifier.byteSize = (before ++ lead ++ s.specifier : Text).byteSize := by
        simp only [lead, Text.byteSize_append]
        omega
      have hnext : (before ++ front : Text).byteSize + gap.byteSize + s.text.byteSize
          = (before ++ lead ++ s.specifier ++ s.tail : Text).byteSize := by
        simp only [lead, Site.text, Text.byteSize_append]
        omega
      rw [htext]
      simp only [located.go, List.map_cons, Site.locate, Range.at, outside, hstart, hstop, hnext, hpiece,
        hih]
      rfl

/-- Outside its specifiers, a cut text has the bytes of the texts between them. -/
theorem outside_specifiers (s : Segments) :
    outside s.text.bytes 0 (s.located.map (·.specifier)) = (frame [] s.sites s.rest).map Text.bytes :=
  outside_go [] [] s.sites s.rest

end Segments

end Typings.Import

namespace Typings.Declaration

open Import

/-! ## Resolved aliases -/

/-- What resolving the aliases does to one statement: its specifier becomes what the rule for it gives,
    if there is one. -/
structure Redirected (dir : Path) (aliases : Alias.Set) (l l' : Located) : Prop where
  kind : l'.site.kind = l.site.kind
  keyword : l'.site.keyword = l.site.keyword
  typeOnly : l'.site.typeOnly = l.site.typeOnly
  clause : l'.site.clause = l.site.clause
  kept : aliases.resolve? l.site.specifier = none → l'.site.specifier = l.site.specifier
  replaced : ∀ rule ∈ aliases.resolve? l.site.specifier,
    l'.site.specifier = aliasTarget dir rule l.site.specifier

theorem redirected_of_redirect {dir : Path} {aliases : Alias.Set} {l l' : Located}
    (h : l'.site = l.site.redirect (resolveSpecifier dir aliases)) : Redirected dir aliases l l' where
  kind := by rw [h]; rfl
  keyword := by rw [h]; rfl
  typeOnly := by rw [h]; rfl
  clause := by rw [h]; rfl
  kept hr := by
    rw [h]
    show resolveSpecifier dir aliases l.site.specifier = _
    rw [resolveSpecifier, hr]
  replaced rule hr := by
    rw [h]
    show resolveSpecifier dir aliases l.site.specifier = _
    rw [resolveSpecifier, hr]

theorem fits_resolveSpecifier {dir : Path} {aliases : Alias.Set} {t : Text}
    (h : ∀ rule ∈ aliases.resolve? t, (aliasTarget dir rule t).Bare) :
    Fits t (resolveSpecifier dir aliases t) := by
  intro q hq hbody
  unfold resolveSpecifier
  split
  · rename_i rule hr
    exact isBody_of_bare hq (h rule hr)
  · exact hbody

section

variable {file : Path} {aliases : Alias.Set} {content : Text}

theorem scan_resolveAliases (h : ∀ s ∈ (scan content).all, ∀ rule ∈ aliases.resolve? s.specifier,
      (aliasTarget file.parentDir rule s.specifier).Bare) :
    scan (resolveAliases file aliases content)
      = (scan content).mapSites (Site.redirect (resolveSpecifier file.parentDir aliases)) :=
  (scanFrom_redirect fun s hs => fits_resolveSpecifier (h s hs)).2

/-- **Resolving aliases keeps the statements of any text**, whether it is well formed or not: as long as
    no rule puts a quote, a backslash or a line feed between the quotes, the new text has the same
    statements in the same order, each with the specifier that its rule gives or the one it had, and
    outside the specifiers not a byte is changed. -/
theorem redirected_resolveAliases
    (h : ∀ l ∈ (scan content).located, ∀ rule ∈ aliases.resolve? l.site.specifier,
      (aliasTarget file.parentDir rule l.site.specifier).Bare) :
    List.Forall₂ (Redirected file.parentDir aliases) (scan content).located
        (scan (resolveAliases file aliases content)).located ∧
      outside (resolveAliases file aliases content).bytes 0
          ((scan (resolveAliases file aliases content)).located.map (·.specifier))
        = outside content.bytes 0 ((scan content).located.map (·.specifier)) := by
  have hsites : ∀ s ∈ (scan content).all, ∀ rule ∈ aliases.resolve? s.specifier,
      (aliasTarget file.parentDir rule s.specifier).Bare := by
    rw [← Segments.map_site_located]
    intro s hs
    obtain ⟨l, hl, rfl⟩ := List.mem_map.mp hs
    exact h l hl
  have hscan := scan_resolveAliases hsites
  constructor
  · rw [hscan]
    exact (Segments.located_mapSites _ _).imp fun _ _ hl => redirected_of_redirect hl
  · have hold := Segments.outside_specifiers (scan content)
    rw [text_scan] at hold
    rw [hscan, hold]
    exact (Segments.outside_specifiers _).trans
      (congrArg (List.map Text.bytes) (Segments.frame_redirect _ [] _ _))

/-- A clause that is broken off, a string without an end, an alias, an excluded specifier and an alias in
    a reference. -/
def brokenText : Text :=
  "import \x7b a; import b from '@/b';\nimport c 'x\nexport * from \"@/keep\"; x.import('@/d'), import( '@/e' )"

theorem redirected_brokenText :
    (scan brokenText).located.map (·.site.specifier) = ([("@/b" : Text), "@/keep", "@/e"] : List Text) ∧
      List.Forall₂ (Redirected "/p/src/ui" ⟨[⟨.literal "@", "/p/src"⟩], [.literal "@/keep"]⟩)
        (scan brokenText).located (scan (resolveAliases "/p/src/ui/a.d.ts"
          ⟨[⟨.literal "@", "/p/src"⟩], [.literal "@/keep"]⟩ brokenText)).located := by
  rw [show brokenText = _ from Text.toList_literal rfl]
  exact ⟨by decide +kernel, (@redirected_resolveAliases "/p/src/ui/a.d.ts"
    ⟨[⟨.literal "@", "/p/src"⟩], [.literal "@/keep"]⟩ _ (by decide +kernel)).1⟩

end

end Typings.Declaration
