import Typings.Proofs.Declaration.Merging
import Typings.Proofs.Declaration.Patching

/-!
# `Damage` — imports that a merge leaves whole, and imports that it breaks

The bindings of a module are put into a clause that is there already: it is cut into its bindings at commas
and blanks, and these are written on one line.  The scanner that found the import takes comments between its
bindings for trivia, but the pieces of a comment are bindings where the clause is cut.  So a line comment
loses the line feed at its end, and the rest of the clause becomes part of the comment.

* `slash_not_mem_of_read`: a clause on one line that is read up to its end has no comments in it.
* `spared_of_siteAt?`: what an import that is found at the old place shows.
* `Spared`: the imports that can be extended; `Extended`, `StillThere`: what becomes of an import.
* `merge_spares_iff`: an import is left whole just if it is one of those, and else it is gone.
* `commented_swallowed`: an import with a comment, after a merge.
-/

namespace Typings.Import

open Declaration (braced)

/-! ## A comment that was put on one line -/

/-- A clause that is put together ends with a closing brace, and in front of it stand names, marks and the
    named bindings. -/
theorem exists_rewritten_eq {default : Option Text} (hdefault : ∀ d ∈ default, IsDefault d) (ts : List Text) :
    ∃ front : Text, rewritten default ts = front ++ ['\x7d'] ∧
      ∀ c ∈ front, isIdent c = true ∨ c ∈ [' ', ',', '\x7b'] ∨ ∃ t ∈ ts, c ∈ t := by
  have hjoined : ∀ c ∈ '\x7b' :: ' ' :: (List.intercalate ", " ts ++ [' ']),
      c ∈ [' ', ',', '\x7b'] ∨ ∃ t ∈ ts, c ∈ t := by
    intro c hc
    simp only [List.mem_cons, List.mem_append, List.not_mem_nil, or_false] at hc ⊢
    rcases hc with rfl | rfl | hc | rfl
    · simp
    · simp
    · refine (Text.mem_intercalate hc).imp_left fun hc => ?_
      have hcases : c = ',' ∨ c = ' ' := by simpa using hc
      exact hcases.elim (fun h => .inr (.inl h)) .inl
    · simp
  cases default with
  | none => exact ⟨'\x7b' :: ' ' :: (List.intercalate ", " ts ++ [' ']), by simp [rewritten, braced_eq],
      fun c hc => .inr (hjoined c hc)⟩
  | some d =>
      refine ⟨d ++ ", " ++ '\x7b' :: ' ' :: (List.intercalate ", " ts ++ [' ']),
        by simp [rewritten, braced_eq], fun c hc => ?_⟩
      rcases List.mem_append.mp hc with hc | hc
      · rcases List.mem_append.mp hc with hc | hc
        · exact .inl ((hdefault d rfl).ident c hc)
        · have hcases : c = ',' ∨ c = ' ' := by simpa using hc
          exact .inr (.inl (by rcases hcases with rfl | rfl <;> simp))
      · exact .inr (hjoined c hc)

theorem mem_rewritten {default : Option Text} {ts : List Text} {t : Text} {c : Char} (ht : t ∈ ts)
    (hc : c ∈ t) : c ∈ rewritten default ts := by
  refine List.mem_append_right _ ?_
  rw [braced_eq]
  exact List.mem_cons_of_mem _ (List.mem_cons_of_mem _
    (List.mem_append_left _ (Text.mem_intercalate_of_mem ", " ht hc)))

/-- A text is split at its first closing brace in one way. -/
theorem closing_inj {a b u v : Text} (ha : '\x7d' ∉ a) (hb : '\x7d' ∉ b)
    (h : a ++ '\x7d' :: u = b ++ '\x7d' :: v) : a = b ∧ u = v := by
  have hfront {a u : Text} (ha : '\x7d' ∉ a) : (a ++ '\x7d' :: u).takeWhile (· != '\x7d') = a := by
    rw [List.takeWhile_append_of_pos fun c hc => bne_iff_ne.mpr (ne_of_mem_of_not_mem hc ha)]
    exact List.append_right_eq_self.mpr rfl
  obtain rfl : a = b := by rw [← hfront (u := u) ha, h, hfront hb]
  exact ⟨rfl, (List.cons.inj (List.append_cancel_left h)).2⟩

section

variable {t rest : Text} {site : Site} (r : ReadImport t site rest)

/-- **A clause on one line has no comments in it**, when it is the clause that is read: a comment that
    nothing closes goes on behind the clause, and then more than blanks stands behind its closing brace. -/
theorem slash_not_mem_of_read {default : Option Text} (hdefault : ∀ d ∈ default, IsDefault d) {ts : List Text}
    (hts : ∀ t ∈ ts, '\n' ∉ t ∧ '*' ∉ t ∧ '\x7d' ∉ t) {read : ClauseRead} {b : Bindings}
    (hread : readClause? 0 false (r.reclaused (rewritten default ts)) = some read)
    (hb : clauseBindings? read.clause = some b) (hb' : ∀ d ∈ b.default, IsDefault d)
    (hnamed : b.named ≠ none) : ∀ t ∈ ts, '/' ∉ t := by
  intro t ht hslash
  obtain ⟨front, hfront, hchars⟩ := exists_rewritten_eq hdefault ts
  have hnot {c : Char} (hi : isIdent c = false) (hmark : c ∉ [' ', ',', '\x7b']) (hc : ∀ t ∈ ts, c ∉ t) :
      c ∉ front := fun hm => by
    rcases hchars c hm with h | h | ⟨t, ht, h⟩
    · rw [hi] at h
      cases h
    · exact hmark h
    · exact hc t ht h
  have hclose : '\x7d' ∉ front := hnot (by decide) (by decide) fun t ht => (hts t ht).2.2
  -- The clause that is read ends with the same brace, but for blanks behind it.
  obtain ⟨front', back, hclause, hclose', hback⟩ := exists_closing hb hb' hnamed
  have htext := readClause?_append hread
  rw [ReadImport.reclaused, ClauseRead.text, hclause, hfront] at htext
  obtain ⟨rfl, hbehind⟩ := closing_inj (a := front) (b := front') hclose hclose' (by simpa using htext)
  have htokens := tokens_clause hread
  -- Such blanks stand in front of the `from` that ended the old clause: they are no tokens.
  have hnil : back = [] := by
    obtain ⟨blanks, hlink, htrivia, -⟩ := exists_link r.clause
    by_contra hne
    have hlast : isToken (back.getLast hne) = true := by
      refine htokens.getLast _ ?_
      rw [hclause, List.getLast?_append, List.getLast?_cons, List.getLast?_eq_some_getLast hne]
      rfl
    have hsplit : blanks ++ 'f' :: ('r' :: 'o' :: 'm' :: r.read.rest) = back ++ (read.link ++ read.rest) := by
      simpa [hlink] using hbehind
    obtain ⟨w, rfl⟩ : ∃ w, blanks = back ++ w := by
      rcases List.append_eq_append_iff.mp hsplit with ⟨w, hback', hw⟩ | ⟨w, hblanks, -⟩
      · cases w with
        | nil => exact ⟨[], by simp [hback']⟩
        | cons c w =>
            obtain rfl := (List.cons.inj hw).1
            exact absurd (hback 'f' (by simp [hback'])) (by decide)
      · exact ⟨w, hblanks⟩
    have hblank := isAsciiBlank_of_trivia (a := back) (congrArg Prod.fst htrivia)
      (fun hm => absurd (hback _ hm) (by decide)) _ (List.getLast_mem hne)
    rw [isAsciiBlank_of_isToken hlast] at hblank
    cases hblank
  rw [hclause, hnil] at htokens
  have hslash' : '/' ∈ front ++ ['\x7d'] := hfront ▸ mem_rewritten ht hslash
  rcases htokens.slash hslash' with hm | hm
  · exact hnot (by decide) (by decide) (fun t ht => (hts t ht).1) (by simpa using hm)
  · exact hnot (by decide) (by decide) (fun t ht => (hts t ht).2.1) (by simpa using hm)

/-- A default binding called `type` that is put in front of braces is taken for the modifier. -/
theorem ReadImport.typeModifier_taken {default : Option Text} (h : default = some "type".toList)
    (ts : List Text) : (typeModifier (r.reclaused (rewritten default ts))).1 = some "type".toList := by
  have hsplit : r.reclaused (rewritten default ts)
      = "type".toList ++ [] ++ ',' :: ' ' :: (braced ts ++ (r.read.link ++ r.read.rest)) := by
    simp [ReadImport.reclaused, rewritten, h]
  rw [hsplit, typeModifier_type (breaks_cons.mpr (by decide)) (trivia_of_token (by decide) (by decide)) rfl]
  rfl

variable {b : Bindings} (hb : clauseBindings? site.clause = some b) (hdefault : ∀ d ∈ b.default, IsDefault d)
  {ts : List Text}

include r hb hdefault

/-- **What an import at the place of the other shows**: where one is found with the same default binding, its
    clause has no comments in it, and its default binding was not taken for the modifier. -/
theorem spared_of_siteAt? (hts : ∀ t ∈ ts, '\n' ∉ t ∧ '*' ∉ t ∧ '\x7d' ∉ t) {property : Bool} {found : Site}
    {behind : Text} {named : List Text} (h : siteAt? property
      (({ site with clause := rewritten b.default ts } : Site).text ++ rest) = some (found, behind))
    (hfound : found.bindings? = some ⟨b.default, some named⟩) (htypeOnly : found.typeOnly = site.typeOnly) :
    (∀ t ∈ ts, '/' ∉ t) ∧ (b.default = some "type".toList → site.typeOnly = true) := by
  obtain ⟨hkind, hkeyword, hbindings⟩ := of_bindings? hfound
  obtain ⟨r'⟩ := exists_readImport h hkind hkeyword
  obtain ⟨-, hbehind, -⟩ := r.behind_reclaused hb hdefault ts
  -- The keyword and the trivia behind it are the same.
  have hmodified : typeModifier (r.modifier.getD [] ++ r.reclaused (rewritten b.default ts))
      = (r'.modifier, r'.read.text) := by
    have htext := List.append_cancel_left (r'.text.symm.trans (r.text_withClause _))
    have hsame := r'.behind
    rw [htext, hbehind] at hsame
    rw [(Prod.mk.inj hsame).2, r'.modified]
  have htype : b.default = some "type".toList → site.typeOnly = true := by
    intro hd
    by_contra hnot
    have hm : r.modifier = none := by
      have hsome : site.typeOnly = r.modifier.isSome := congrArg Site.typeOnly r.site_eq
      rw [hsome] at hnot
      simpa using hnot
    have hsome : found.typeOnly = r'.modifier.isSome := congrArg Site.typeOnly r'.site_eq
    have htaken := r.typeModifier_taken hd ts
    rw [hm] at hmodified
    have hmodifier : r'.modifier = some "type".toList := (congrArg Prod.fst hmodified).symm.trans htaken
    rw [hmodifier] at hsome
    exact hnot (htypeOnly.symm.trans hsome)
  refine ⟨?_, htype⟩
  rw [r.typeModifier_reclaused hb hdefault ts htype] at hmodified
  have hread := r'.clause
  rw [← (Prod.mk.inj hmodified).2] at hread
  rw [r'.clause_eq] at hbindings
  exact slash_not_mem_of_read r hdefault hts hread hbindings hdefault nofun

end

/-! ## Places -/

/-- The text of sites with the texts in front of them. -/
def sitesText (sites : List (Text × Site)) : Text := sites.flatMap fun p => p.1 ++ p.2.text

theorem text_of_sites {s : Segments} {before after : List (Text × Site)} {gap : Text} {site : Site}
    (h : s.sites = before ++ (gap, site) :: after) :
    s.text = sitesText before ++ gap ++ (site.text ++ Segments.text ⟨after, s.rest⟩) := by
  simp [Segments.text, sitesText, h]

theorem located_go_append (offset : Nat) (before after : List (Text × Site)) :
    Segments.located.go offset (before ++ after) = Segments.located.go offset before
      ++ Segments.located.go (offset + (sitesText before).byteSize) after := by
  induction before generalizing offset with
  | nil => rfl
  | cons p before ih =>
      rw [List.cons_append, Segments.located.go, Segments.located.go, ih, List.cons_append]
      simp [sitesText, Nat.add_assoc]

/-- The site that is located at a place, and those around it. -/
theorem exists_site {sites : List (Text × Site)} {offset : Nat} {front back : List Located} {l : Located}
    (h : Segments.located.go offset sites = front ++ l :: back) : ∃ before gap after,
      sites = before ++ (gap, l.site) :: after ∧ front = Segments.located.go offset before ∧
        l = l.site.locate (offset + (sitesText before ++ gap).byteSize) ∧
        back = Segments.located.go l.span.stop after := by
  induction sites generalizing offset front with
  | nil => simp [Segments.located.go] at h
  | cons p sites ih =>
      rw [Segments.located.go] at h
      cases front with
      | nil =>
          obtain ⟨rfl, rfl⟩ := List.cons.inj h
          exact ⟨[], p.1, sites, rfl, rfl, rfl, rfl⟩
      | cons m front =>
          obtain ⟨rfl, hrest⟩ := List.cons.inj h
          obtain ⟨before, gap, after, rfl, rfl, hl, rfl⟩ := ih hrest
          refine ⟨p :: before, gap, after, rfl, rfl, ?_, rfl⟩
          rw [hl]
          simp [sitesText, Site.locate, Nat.add_assoc]

/-- The same sites from another place on. -/
theorem forall₂_located_go (a b : Nat) (sites : List (Text × Site)) :
    List.Forall₂ (fun m m' : Located => m'.site = m.site ∧ m'.span.start + a = m.span.start + b)
      (Segments.located.go a sites) (Segments.located.go b sites) := by
  induction sites generalizing a b with
  | nil => exact .nil
  | cons p sites ih =>
      refine .cons ⟨rfl, by simp [Site.locate, Range.at]; omega⟩ ((ih _ _).imp ?_)
      rintro m m' ⟨hsite, hstart⟩
      exact ⟨hsite, by omega⟩

end Typings.Import

namespace Typings.Declaration

open Import

/-! ## Bindings that are added -/

/-- Bindings that a merge adds: tidy ones, told apart without their modifiers.  The bindings that references to
    types need are such (`newBindings_neededBindings`). -/
structure NewBindings (new : List Text) : Prop where
  neat : ∀ t ∈ new, Neat t
  distinct : (new.map bindingKey).Nodup

/-- What hoisting adds to the imports of a module. -/
theorem newBindings_neededBindings {refs : List Reference} (hplain : ∀ r ∈ refs, Plain r) (module : Text) :
    NewBindings (neededBindings refs module) where
  neat t ht := by
    obtain ⟨b, hb, rfl⟩ := written_neededBindings hplain module t ht
    exact b.neat hb
  distinct := nodup_neededBindings hplain module

/-- The named bindings of an import and, behind them, the new ones that are missing. -/
def extended (b : Bindings) (new : List Text) : List Text := b.named.getD [] ++ missing (b.named.getD []) new

theorem extendClause_eq (b : Bindings) {new : List Text} (hnew : NewBindings new) :
    extendClause b new = rewritten b.default (extended b new) := by
  rw [extended, ← addBindings_eq hnew.distinct]
  rfl

/-- Merging extends the first import that accepts the bindings. -/
theorem mergeSites?_append {module : Text} {new : List Text} {before after : List (Text × Site)} {gap : Text}
    {site : Site} {b : Bindings} (hbefore : ∀ p ∈ before, accepts module p.2 = false)
    (hsite : suitable? module site = some b) :
    mergeSites? module new (before ++ (gap, site) :: after)
      = some (before ++ (gap, { site with clause := extendClause b new }) :: after) := by
  induction before with
  | nil => simp [mergeSites?, hsite]
  | cons p before ih =>
      obtain ⟨hfirst, hrest⟩ := List.forall_mem_cons.mp hbefore
      have hnone : suitable? module p.2 = none := by simpa [accepts] using hfirst
      rw [List.cons_append, mergeSites?, hnone, ih hrest]
      rfl

/-! ## What a merge leaves whole -/

/-- The import has no comment in its clause, and its default binding would not be taken for the modifier. -/
structure Spared (s : Site) (b : Bindings) : Prop where
  uncommented : '/' ∉ s.clause
  untyped : b.default = some "type".toList → s.typeOnly = true

/-- Among the sites there is an import of the module at the place of this one, as much only for types and
    with this default binding, whatever else it binds. -/
def StillThere (l : Located) (default : Option Text) (found : List Located) : Prop :=
  ∃ l' ∈ found, l'.span.start = l.span.start ∧ l'.site.specifier = l.site.specifier ∧
    l'.site.typeOnly = l.site.typeOnly ∧ ∃ named, l'.site.bindings? = some ⟨default, some named⟩

/-- The sites after a merge: those in front of the import as they were, the import at its place with another
    clause and these bindings, and the ones behind it moved by what it became longer. -/
def Extended (l : Located) (bound : Bindings) (old found : List Located) : Prop :=
  ∃ front l' back back', old = front ++ l :: back ∧ found = front ++ l' :: back' ∧
    l'.span.start = l.span.start ∧ l'.site = { l.site with clause := l'.site.clause } ∧
    l'.site.bindings? = some bound ∧
    List.Forall₂ (fun m m' => m'.site = m.site ∧
      m'.span.start + l.span.stop = m.span.start + l'.span.stop) back back'

theorem Extended.stillThere {l : Located} {default : Option Text} {named : List Text}
    {old found : List Located} (h : Extended l ⟨default, some named⟩ old found) :
    StillThere l default found := by
  obtain ⟨front, l', back, back', -, rfl, hstart, hsite, hbound, -⟩ := h
  exact ⟨l', by simp, hstart, by rw [hsite], by rw [hsite], named, hbound⟩

section

variable {t rest : Text} {site : Site} (r : ReadImport t site rest) {b : Bindings}
  (hb : clauseBindings? site.clause = some b) {new : List Text} (hnew : NewBindings new)

include r hb hnew

/-- In a clause without comments the bindings are neat. -/
theorem forall_neat_extended (hslash : '/' ∉ site.clause) :
    ∀ t ∈ extended b new, Neat t := by
  intro t ht
  rcases List.mem_append.mp ht with ht | ht
  · cases hnamed : b.named with
    | none => simp [hnamed] at ht
    | some ts =>
        rw [hnamed] at ht
        obtain ⟨hne, htidy, hchars⟩ := of_mem_bindings hb hnamed ht
        have htokens := tokens_clause r.clause
        rw [← r.clause_eq] at htokens
        refine ⟨hne, htidy, fun c hc => (hchars c hc).symm.imp_left ?_⟩
        rintro ⟨hmem, hblank, hcomma, hopen, hclose, hstar⟩
        rcases htokens.mem hslash c hmem with htoken | hascii
        · simpa [isToken, hcomma, hopen, hclose, hstar] using htoken
        · have hascii : Text.isBlank c = true := by
            simp only [Text.isAsciiBlank, Bool.or_eq_true, beq_iff_eq] at hascii
            rcases hascii with (((rfl | rfl) | rfl) | rfl) | rfl <;> decide
          rw [hblank] at hascii
          cases hascii
  · exact hnew.neat t (List.mem_filter.mp ht).1

omit r in
/-- On one line the bindings have no line feed, and in no clause a star or a brace. -/
theorem forall_not_mem_extended :
    ∀ t ∈ extended b new, '\n' ∉ t ∧ '*' ∉ t ∧ '\x7d' ∉ t := by
  intro t ht
  rcases List.mem_append.mp ht with ht | ht
  · cases hnamed : b.named with
    | none => simp [hnamed] at ht
    | some ts =>
        rw [hnamed] at ht
        obtain ⟨-, -, hchars⟩ := of_mem_bindings hb hnamed ht
        refine ⟨fun hm => ?_, fun hm => ?_, fun hm => ?_⟩
        · rcases hchars _ hm with h | ⟨-, h, -⟩ <;> exact absurd h (by decide)
        · rcases hchars _ hm with h | ⟨-, -, -, -, -, h⟩ <;> exact absurd h (by decide)
        · rcases hchars _ hm with h | ⟨-, -, -, -, h, -⟩ <;> exact absurd h (by decide)
  · have hneat := hnew.neat t (List.mem_filter.mp ht).1
    exact ⟨hneat.not_mem (by decide) (by decide), hneat.not_mem (by decide) (by decide),
      hneat.not_mem (by decide) (by decide)⟩

end

section

variable {module content merged : Text} {new : List Text} {l : Located} {b : Bindings}

theorem bindings?_withClause {site : Site} (hkind : site.kind = .static)
    (hkeyword : site.keyword = .importing) {clause : Text} {b : Bindings}
    (h : clauseBindings? clause = some b) :
    ({ site with clause := clause } : Site).bindings? = some b := by
  rw [Site.bindings?, if_pos (by simp [hkind, hkeyword])]
  exact h

/-- The import that is merged into, among the sites of the text, and what the text becomes. -/
theorem exists_merged_site (hnew : NewBindings new)
    (hl : (scan content).located.find? (fun l => accepts module l.site) = some l)
    (hb : l.site.bindings? = some b) (hmerge : mergeImport? module new content = some merged) :
    ∃ before gap after, (scan content).sites = before ++ (gap, l.site) :: after ∧
      (scan content).located = Segments.located.go 0 before ++ l :: Segments.located.go l.span.stop after ∧
      l = l.site.locate (0 + (sitesText before ++ gap).byteSize) ∧
      merged = Segments.text
        ⟨before ++ (gap, { l.site with clause := rewritten b.default (extended b new) }) :: after,
          (scan content).rest⟩ := by
  obtain ⟨haccepts, front, back, hlocated, hfront⟩ := List.find?_eq_some_iff_append.mp hl
  obtain ⟨before, gap, after, hsites, rfl, hplace, rfl⟩ := exists_site hlocated
  refine ⟨before, gap, after, hsites, hlocated, hplace, ?_⟩
  have hbefore : ∀ p ∈ before, accepts module p.2 = false := by
    intro p hp
    have hall := Segments.map_site_located ⟨before, []⟩
    have hmem : p.2 ∈ (Segments.located ⟨before, []⟩).map (·.site) := by
      rw [hall]
      exact List.mem_map_of_mem hp
    obtain ⟨m, hm, hsite⟩ := List.mem_map.mp hmem
    simpa [← hsite] using hfront m hm
  obtain ⟨b', hsuitable⟩ := Option.isSome_iff_exists.mp haccepts
  obtain rfl : b' = b := Option.some.inj ((suitable?_eq_some hsuitable).2.2.2.symm.trans hb)
  rw [mergeImport?, hsites, mergeSites?_append hbefore hsuitable, extendClause_eq b' hnew] at hmerge
  exact (Option.some.inj hmerge).symm

section

variable (hnew : NewBindings new)
  (hl : (scan content).located.find? (fun l => accepts module l.site) = some l)
  (hb : l.site.bindings? = some b) (hdefault : ∀ d ∈ b.default, IsDefault d)
  (hmerge : mergeImport? module new content = some merged)

include hnew hl hb hdefault hmerge

/-- What is spared is extended: its new clause is read in the place of the old one. -/
theorem extended_of_spared (h : Spared l.site b) :
    Extended l ⟨b.default, some (extended b new)⟩ (scan content).located (scan merged).located := by
  obtain ⟨before, gap, after, hsites, hlocated, hplace, hmerged⟩ := exists_merged_site hnew hl hb hmerge
  obtain ⟨hkind, hkeyword, hbindings⟩ := of_bindings? hb
  obtain ⟨rest, -, hread, -⟩ := scanFrom_patch hsites
  obtain ⟨r⟩ := exists_readImport hread hkind hkeyword
  have hneat := forall_neat_extended r hbindings hnew h.uncommented
  have hscan := scan_reclaused hsites hb hdefault h.untyped hneat
  rw [← hmerged] at hscan
  generalize hclause : rewritten b.default (extended b new) = clause at hscan
  have hfound : (scan merged).located = Segments.located.go 0 before
      ++ ({ l.site with clause := clause } : Site).locate l.span.start
        :: Segments.located.go (l.span.start + ({ l.site with clause := clause } : Site).text.byteSize)
          after := by
    rw [hscan, Segments.located, located_go_append, Segments.located.go, hplace]
    simp [Site.locate, Range.at]
  refine ⟨_, _, _, _, hlocated, hfound, rfl, rfl, ?_, forall₂_located_go _ _ after⟩
  refine bindings?_withClause hkind hkeyword ?_
  rw [← hclause]
  exact clauseBindings?_rewritten hdefault hneat

/-- An import that is found at the old place is the one with the new clause, and it was spared. -/
theorem spared_of_stillThere (h : StillThere l b.default (scan merged).located) : Spared l.site b := by
  obtain ⟨before, gap, after, hsites, -, hplace, hmerged⟩ := exists_merged_site hnew hl hb hmerge
  obtain ⟨hkind, hkeyword, hbindings⟩ := of_bindings? hb
  obtain ⟨rest, hrest, hread, -⟩ := scanFrom_patch hsites
  obtain ⟨r⟩ := exists_readImport hread hkind hkeyword
  obtain ⟨l', hl', hstart, -, htypeOnly, named, hfound⟩ := h
  obtain ⟨front, back, hsplit⟩ := List.append_of_mem hl'
  obtain ⟨before', gap', after', hsites', -, hplace', -⟩ := exists_site hsplit
  obtain ⟨behind, hbehind, hread', -⟩ := scanFrom_patch hsites'
  have hold : sitesText before ++ gap
      ++ (({ l.site with clause := rewritten b.default (extended b new) } : Site).text ++ rest)
        = sitesText before' ++ gap' ++ (l'.site.text ++ behind) := by
    rw [hrest, hbehind]
    have htext := hmerged.symm.trans (text_scan merged).symm
    rw [text_of_sites rfl] at htext
    exact htext.trans (text_of_sites hsites')
  have hsize : (sitesText before ++ gap).byteSize = (sitesText before' ++ gap').byteSize := by
    rw [hplace, hplace'] at hstart
    simpa [Site.locate, Range.at] using hstart.symm
  obtain ⟨-, hsame⟩ := Text.append_inj_byteSize hold hsize
  rw [← hsame] at hread'
  obtain ⟨hslash, htype⟩ := spared_of_siteAt? r hbindings hdefault
    (forall_not_mem_extended hbindings hnew) hread' hfound htypeOnly
  refine ⟨fun hm => ?_, htype⟩
  -- A comment in the clause is in one of its bindings, and those are all in the new clause.
  obtain ⟨ts, hts, t, ht, hc⟩ := exists_mem_bindings hbindings hdefault hm (by decide) (by decide)
    (by decide) (by decide) (by decide)
  refine hslash t (List.mem_append_left _ ?_) hc
  rw [Option.mem_def.mp hts]
  exact ht

end

/-- **When merging leaves an import whole.** The bindings of a module are put into the first import that
    accepts them, whose default binding, if it has one, is an identifier.  Then the import stands in the
    text at the place where it was, of the same module, as much only for types, with the same default
    binding and with the bindings that it had and the missing ones, and every other site is still there,
    just if no comment stands in its clause and no default binding `type` is put in front of braces.
    Otherwise there is no import of the module with that default binding at that place, whatever else it
    may bind.

    What is left out are imports with a comment that touches the default binding, such as `D//c`: there the
    comment is read as a part of the name, which is no identifier then. -/
theorem merge_spares_iff (hnew : NewBindings new)
    (hl : (scan content).located.find? (fun l => accepts module l.site) = some l)
    (hb : l.site.bindings? = some b) (hdefault : ∀ d ∈ b.default, IsDefault d)
    (hmerge : mergeImport? module new content = some merged) :
    (Extended l ⟨b.default, some (extended b new)⟩
        (scan content).located (scan merged).located ↔ Spared l.site b) ∧
      (StillThere l b.default (scan merged).located ↔ Spared l.site b) := by
  have hspared := spared_of_stillThere hnew hl hb hdefault hmerge
  have hextended := extended_of_spared hnew hl hb hdefault hmerge
  exact ⟨⟨fun h => hspared h.stillThere, hextended⟩, ⟨hspared, fun h => (hextended h).stillThere⟩⟩

end

/-- An import on several lines with an alias and a type, between other statements. -/
def severalLines : Text :=
  "import x from './x';\nimport D, \x7b a,\n  type b as c \x7d from 'lib';\nexport * from './y';\n"

theorem merge_spares_iff_severalLines :
    ∃ l b merged, (scan severalLines).located.find? (fun l => accepts "lib" l.site) = some l ∧
      l.site.bindings? = some b ∧ mergeImport? "lib" ["a", "C"] severalLines = some merged ∧ Spared l.site b ∧
      Extended l ⟨some "D".toList, some ["a", "type b as c", "C"]⟩ (scan severalLines).located
        (scan merged).located := by
  have htext : severalLines = _ := Text.toList_literal rfl
  have hfound : ((scan severalLines).located.find? fun l => accepts "lib" l.site).bind
      (fun l => l.site.bindings?) = some ⟨some "D".toList, some ["a", "type b as c"]⟩ := by
    rw [htext]
    decide +kernel
  have hspared : ((scan severalLines).located.find? fun l => accepts "lib" l.site).all
      (fun l => !l.site.clause.contains '/') = true := by
    rw [htext]
    decide +kernel
  have hmerge : (mergeImport? "lib" ["a", "C"] severalLines).isSome = true := by
    rw [htext]
    decide +kernel
  obtain ⟨l, hl, hb⟩ := Option.bind_eq_some_iff.mp hfound
  obtain ⟨merged, hmerged⟩ := Option.isSome_iff_exists.mp hmerge
  -- Both bindings are needed by references to types of the module.
  have hnew : NewBindings ["a", "C"] := by
    have hmodule : ∀ c ∈ ("lib" : Text), Quote.single.admits c := by decide
    have hplain (n : Name) (hn : n.Solid) : Plain ⟨⟨0, 0⟩, ⟨0, 0⟩, ⟨0, 0⟩, "lib", n.text⟩ :=
      ⟨⟨n, hn, rfl⟩, hmodule⟩
    let a : Name := ⟨⟨"a", by decide, by decide, by decide, by decide⟩, by decide, by decide⟩
    let c : Name := ⟨⟨"C", by decide, by decide, by decide, by decide⟩, by decide, by decide⟩
    have ha := hplain a (by unfold Word.Solid; decide)
    have hc := hplain c (by unfold Word.Solid; decide)
    exact newBindings_neededBindings (List.forall_mem_cons.mpr ⟨ha, List.forall_mem_singleton.mpr hc⟩) "lib"
  have hdefault : ∀ d ∈ some "D".toList, IsDefault d := fun d hd => by
    obtain rfl := Option.some.inj hd
    exact ⟨by decide, by decide, by decide⟩
  have hclean : Spared l.site ⟨some "D".toList, some ["a", "type b as c"]⟩ := by
    rw [hl] at hspared
    exact ⟨by simpa using hspared, fun h => absurd h (by decide)⟩
  exact ⟨l, _, merged, hl, hb, hmerged, hclean, (merge_spares_iff hnew hl hb hdefault hmerged).1.mpr hclean⟩

/-- An import with a line comment in its clause, and what merging makes of it. -/
def commented : Text :=
  "import \x7b\n  a, // first\n  b\n\x7d from 'lib';\nexport declare const c: C;\n"

def swallowed : Text := "import \x7b a, // first b, C \x7d from 'lib';\nexport declare const c: C;\n"

theorem commented_swallowed :
    (scan commented).located.map (fun l => accepts "lib" l.site) = [true] ∧
      mergeImport? "lib" ["C"] commented = some swallowed ∧ (scan swallowed).located = [] := by
  rw [show commented = _ from Text.toList_literal rfl, show swallowed = _ from Text.toList_literal rfl]
  exact ⟨by decide +kernel, by decide +kernel, by decide +kernel⟩

end Typings.Declaration
