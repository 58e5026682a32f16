import Typings.Proofs.Declaration.Parts
import Typings.Proofs.Import.Lexed
import Typings.Proofs.Text

/-!
# `Order` — the order of sites and references

The ranges that scanning reports lie in the text, those of the parts of a site lie in the site in the order
of the parts, and sites come one after the other.  So do references, which reach over their site into the
text behind it, but not as far as the next site.

* `Spaced`: what scanning knows of a site and the text between it and the site before.
* `Located.Nested`: the parts of a site are in order.
* `nested_located`, `pairwise_located`: the sites of a text.
* `pairwise_references`, `references_within`: the references of a text.
-/

namespace Typings.Import

open Declaration (afterSite gapsAfter_cons)

/-! ## Sites and the texts before them -/

/-- The text before a site ends neither in an identifier nor in a dot; the site starts with its keyword and
    does not end with its specifier. -/
structure Spaced (gap : Text) (site : Site) : Prop where
  gap : ∀ c ∈ gap.getLast?, isIdent c = false ∧ c ≠ '.'
  head : ∃ c v, site.head = c :: v ∧ isIdent c = true
  tail : site.tail ≠ []

theorem spaced_of_siteAt? {property : Bool} {t rest : Text} {site : Site}
    (h : siteAt? property t = some (site, rest)) : Spaced [] site where
  gap := nofun
  head := by
    obtain ⟨-, k, -, hsite⟩ := exists_of_siteAt? h
    obtain ⟨v, hv⟩ := siteAfter?_head hsite
    obtain ⟨c, w, hw⟩ : ∃ c w, k.text = c :: w := by cases k <;> exact ⟨_, _, rfl⟩
    exact ⟨c, w ++ v, by rw [← hv, hw]; rfl, isIdent_of_mem_keyword (k := k) (by rw [hw]; simp)⟩
  tail := by
    obtain ⟨_, q, tail, _, -, -, -, htail, -⟩ := lexedSite_of_siteAt? h
    rw [htail]
    exact List.cons_ne_nil q tail

/-- A site with nothing before it is at the front. -/
theorem siteAt?_of_sites {property : Bool} {t : Text} {site : Site} {more : List (Text × Site)}
    (h : (scanFrom property t).sites = ([], site) :: more) :
    ∃ rest, siteAt? property t = some (site, rest) := by
  unfold scanFrom at h
  split at h
  · cases h
  next hne =>
    split at h
    next site' rest hs =>
      obtain ⟨heq, -⟩ := List.cons.inj h
      obtain ⟨-, rfl⟩ := Prod.mk.inj heq
      exact ⟨rest, hs⟩
    next hs =>
      -- A lexeme that is left would be before the site.
      unfold Segments.prepend at h
      split at h
      next hnil =>
        rw [hnil] at h
        cases h
      next =>
        obtain ⟨heq, -⟩ := List.cons.inj h
        obtain ⟨hgap, -⟩ := Prod.mk.inj heq
        exact absurd (List.append_eq_nil_iff.mp hgap).1 (lexeme_ne_nil hne)

/-- A lexeme before a site. -/
theorem Spaced.prepend {t gap : Text} {site : Site} {more : List (Text × Site)} (h : Spaced gap site)
    (hsites : (scanFrom ((lexeme t).1 == ".") (lexeme t).2).sites = (gap, site) :: more) :
    Spaced ((lexeme t).1 ++ gap) site where
  gap := by
    intro c hc
    by_cases hgap : gap = []
    · subst hgap
      rw [List.append_nil] at hc
      obtain ⟨rest, hs⟩ := siteAt?_of_sites hsites
      obtain ⟨d, v, hd, hident⟩ := h.head
      rcases parts_lexeme t with hdot | hparts
      · rw [hdot] at hs
        cases hs
      · refine hparts d ?_ hident c hc
        rw [siteAt?_append hs, Site.text, hd]
        rfl
    · rw [List.getLast?_append_of_ne_nil _ hgap] at hc
      exact h.gap c hc
  head := h.head
  tail := h.tail

theorem spaced_scanFrom (property : Bool) (t : Text) :
    ∀ p ∈ (scanFrom property t).sites, Spaced p.1 p.2 := by
  fun_induction scanFrom property t with
  | case1 => exact fun p hp => absurd hp List.not_mem_nil
  | case2 property t hne site rest hs hlt ih =>
      intro p hp
      rcases List.mem_cons.mp hp with rfl | hp
      · exact spaced_of_siteAt? hs
      · exact ih p hp
  | case3 property t hne hs hlt ih =>
      intro p hp
      cases hsites : (scanFrom ((lexeme t).1 == ".") (lexeme t).2).sites with
      | nil =>
          rw [Segments.prepend, hsites] at hp
          dsimp only at hp
          exact absurd hp List.not_mem_nil
      | cons first more =>
          rw [Segments.prepend, hsites] at hp
          rw [hsites] at ih
          rcases List.mem_cons.mp hp with rfl | hp
          · exact (ih first List.mem_cons_self).prepend hsites
          · exact ih p (List.mem_cons_of_mem _ hp)

/-- Every site of a text fits. -/
theorem spaced_scan (t : Text) : ∀ p ∈ (scan t).sites, Spaced p.1 p.2 := spaced_scanFrom false t

/-! ## Ranges of sites -/

/-- The ranges of a site's parts are in the order of the parts, and end by `size`. -/
structure Located.Nested (l : Located) (size : Nat) : Prop where
  start_lt : l.span.start < l.specifier.start
  specifier : l.specifier.start ≤ l.specifier.stop
  stop_lt : l.specifier.stop < l.span.stop
  stop_le : l.span.stop ≤ size
  clause_start : l.span.start ≤ l.clause.start
  clause : l.clause.start ≤ l.clause.stop
  clause_stop : l.clause.stop ≤ l.specifier.start

theorem Spaced.nested {gap : Text} {site : Site} (h : Spaced gap site) (start : Nat) :
    (site.locate start).Nested (start + site.text.byteSize) := by
  have hhead : 0 < site.head.byteSize := by
    obtain ⟨c, v, hv, -⟩ := h.head
    exact Text.byteSize_pos (hv ▸ List.cons_ne_nil c v)
  have htail := Text.byteSize_pos h.tail
  constructor <;> simp only [Site.locate, Site.text, Range.at, Text.byteSize_append] <;> omega

theorem Located.Nested.mono {l : Located} {m n : Nat} (h : l.Nested m) (hmn : m ≤ n) : l.Nested n :=
  { h with stop_le := h.stop_le.trans hmn }

theorem text_cons (gap : Text) (site : Site) (more : List (Text × Site)) (rest : Text) :
    Segments.text ⟨(gap, site) :: more, rest⟩ = gap ++ (site.text ++ Segments.text ⟨more, rest⟩) := by
  simp [Segments.text]

theorem located_go {sites : List (Text × Site)} (hspaced : ∀ p ∈ sites, Spaced p.1 p.2) (rest : Text)
    (offset : Nat) :
    (Segments.located.go offset sites).Pairwise (fun a b => a.span.stop ≤ b.span.start) ∧
      ∀ l ∈ Segments.located.go offset sites, offset ≤ l.span.start ∧
        l.Nested (offset + (Segments.text ⟨sites, rest⟩).byteSize) := by
  induction sites generalizing offset with
  | nil => exact ⟨.nil, fun l hl => absurd hl List.not_mem_nil⟩
  | cons p more ih =>
      obtain ⟨gap, site⟩ := p
      obtain ⟨hpairs, hmore⟩ := ih (fun p hp => hspaced p (List.mem_cons_of_mem _ hp))
        (offset + gap.byteSize + site.text.byteSize)
      have hsize : (Segments.text ⟨(gap, site) :: more, rest⟩).byteSize
          = gap.byteSize + (site.text.byteSize + (Segments.text ⟨more, rest⟩).byteSize) := by
        rw [text_cons, Text.byteSize_append, Text.byteSize_append]
      rw [Segments.located.go, List.pairwise_cons, hsize]
      refine ⟨⟨fun l hl => (hmore l hl).1, hpairs⟩, fun l hl => ?_⟩
      rcases List.mem_cons.mp hl with rfl | hl
      · have hnested : (site.locate (offset + gap.byteSize)).Nested (offset + gap.byteSize + site.text.byteSize) :=
          (hspaced (gap, site) List.mem_cons_self).nested _
        exact ⟨Nat.le_add_right _ _, hnested.mono (by omega)⟩
      · obtain ⟨hstart, hnested⟩ := hmore l hl
        exact ⟨by omega, hnested.mono (by omega)⟩

/-- **The parts of every site are in order.** -/
theorem nested_located (t : Text) : ∀ l ∈ (scan t).located, l.Nested t.byteSize := by
  intro l hl
  have hnested := ((located_go (spaced_scan t) (scan t).rest 0).2 l hl).2
  rwa [Nat.zero_add, show Segments.text ⟨(scan t).sites, (scan t).rest⟩ = (scan t).text from rfl,
    text_scan] at hnested

/-- **The sites come one after the other.** -/
theorem pairwise_located (t : Text) :
    (scan t).located.Pairwise fun a b => a.span.stop ≤ b.span.start :=
  (located_go (spaced_scan t) (scan t).rest 0).1

/-! ## Ranges of references -/

/-- The references of the sites of a text that starts at an offset. -/
def referencesFrom (offset : Nat) (sites : List (Text × Site)) (rest : Text) : List Reference :=
  ((Segments.located.go offset sites).zip (gapsAfter sites rest)).filterMap fun (l, after) => l.reference? after

theorem referencesFrom_cons (offset : Nat) (gap : Text) (site : Site) (more : List (Text × Site)) (rest : Text) :
    referencesFrom offset ((gap, site) :: more) rest
      = ((site.locate (offset + gap.byteSize)).reference? (afterSite more rest)).toList
        ++ referencesFrom (offset + gap.byteSize + site.text.byteSize) more rest := by
  rw [referencesFrom, gapsAfter_cons, Segments.located.go, List.zip_cons_cons, List.filterMap_cons]
  dsimp only
  cases (site.locate (offset + gap.byteSize)).reference? (afterSite more rest) <;> rfl

/-- The member that is named starts what stands behind the site, after a dot. -/
theorem append_of_member? {v name rest : Text} (h : member? v = some (name, rest)) :
    v = '.' :: (name ++ rest) := by
  unfold member? at h
  split at h
  next w =>
    have happend := word_append w
    split at h
    · cases h
    next hword =>
      obtain ⟨rfl, rfl⟩ := Prod.mk.inj (Option.some.inj h)
      rw [hword] at happend
      rw [happend]
  · cases h

/-- A reference starts with its site and reaches into the text behind it, but not over its end. -/
theorem span_reference? {l : Located} {after : Text} {r : Reference} (h : l.reference? after = some r) :
    r.span.start = l.span.start ∧ l.span.stop < r.span.stop ∧ r.span.stop ≤ l.span.stop + after.byteSize := by
  rw [Located.reference?] at h
  split at h
  · obtain ⟨⟨name, u⟩, hmember, rfl⟩ := Option.map_eq_some_iff.mp h
    obtain rfl := append_of_member? hmember
    have hsize : Text.byteSize ('.' :: (name ++ u)) = 1 + (name.byteSize + Text.byteSize u) := by
      rw [Text.byteSize_cons, Text.byteSize_append]
      rfl
    show l.span.start = l.span.start ∧ l.span.stop < l.span.stop + 1 + name.byteSize ∧
      l.span.stop + 1 + name.byteSize ≤ l.span.stop + Text.byteSize ('.' :: (name ++ u))
    omega
  · cases h

theorem size_afterSite_le (sites : List (Text × Site)) (rest : Text) :
    (afterSite sites rest).byteSize ≤ (Segments.text ⟨sites, rest⟩).byteSize := by
  cases sites with
  | nil => exact Nat.le_refl _
  | cons p more =>
      rw [show (p :: more) = (p.1, p.2) :: more from rfl, text_cons, Text.byteSize_append]
      exact Nat.le_add_right _ _

theorem references_go (sites : List (Text × Site)) (rest : Text) (offset : Nat) :
    (referencesFrom offset sites rest).Pairwise (fun a b => a.span.stop ≤ b.span.start) ∧
      ∀ r ∈ referencesFrom offset sites rest, offset + (afterSite sites rest).byteSize ≤ r.span.start ∧
        r.span.start < r.span.stop ∧ r.span.stop ≤ offset + (Segments.text ⟨sites, rest⟩).byteSize := by
  induction sites generalizing offset with
  | nil => exact ⟨.nil, fun r hr => absurd hr List.not_mem_nil⟩
  | cons p more ih =>
      obtain ⟨gap, site⟩ := p
      obtain ⟨hpairs, hmore⟩ := ih (offset + gap.byteSize + site.text.byteSize)
      have hafter := size_afterSite_le more rest
      have hsize : (Segments.text ⟨(gap, site) :: more, rest⟩).byteSize
          = gap.byteSize + (site.text.byteSize + (Segments.text ⟨more, rest⟩).byteSize) := by
        rw [text_cons, Text.byteSize_append, Text.byteSize_append]
      -- The reference of the site ends before the references of the sites behind it.
      have hfirst : ∀ r ∈ ((site.locate (offset + gap.byteSize)).reference? (afterSite more rest)).toList,
          r.span.start = offset + gap.byteSize ∧ offset + gap.byteSize + site.text.byteSize < r.span.stop ∧
            r.span.stop ≤ offset + gap.byteSize + site.text.byteSize + (afterSite more rest).byteSize :=
        fun r hr => span_reference? (Option.mem_toList.mp hr)
      rw [referencesFrom_cons, hsize, show afterSite ((gap, site) :: more) rest = gap from rfl]
      refine ⟨List.pairwise_append.mpr ⟨?_, hpairs, fun a ha b hb => ?_⟩, fun r hr => ?_⟩
      · cases (site.locate (offset + gap.byteSize)).reference? (afterSite more rest) with
        | none => exact .nil
        | some r => exact List.pairwise_singleton _ r
      · exact (hfirst a ha).2.2.trans (hmore b hb).1
      · rcases List.mem_append.mp hr with hr | hr
        · obtain ⟨hstart, hlt, hle⟩ := hfirst r hr
          exact ⟨by omega, by omega, by omega⟩
        · obtain ⟨hstart, hlt, hle⟩ := hmore r hr
          exact ⟨by omega, hlt, by omega⟩

/-- **The references come one after the other.** -/
theorem pairwise_references (t : Text) :
    (scan t).references.Pairwise fun a b => a.span.stop ≤ b.span.start :=
  (references_go (scan t).sites (scan t).rest 0).1

/-- References are no empty ranges, and lie in the text. -/
theorem references_within (t : Text) :
    ∀ r ∈ (scan t).references, r.span.start < r.span.stop ∧ r.span.stop ≤ t.byteSize := by
  intro r hr
  obtain ⟨-, hlt, hle⟩ := (references_go (scan t).sites (scan t).rest 0).2 r hr
  rw [Nat.zero_add, show Segments.text ⟨(scan t).sites, (scan t).rest⟩ = (scan t).text from rfl, text_scan] at hle
  exact ⟨hlt, hle⟩

end Typings.Import
