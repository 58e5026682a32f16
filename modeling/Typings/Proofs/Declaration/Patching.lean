import Typings.Proofs.Declaration.Redirection
import Typings.Proofs.Import.Reimport

/-!
# `Patching` — a text in which one import has another clause

The texts with the old and with the new clause are alike up to the keyword of the import.  There is a seam:
a statement from further in front that was broken off may be read on across the keyword, with the import's
words for names, until it comes to a string.  It finds none in the new text where it found none in the old
one, so nothing is read there that ends behind the import, and the statements in front of it and behind it
are found as before.

* `specifierFrom?_reclaused`, `ReadImport.seam`: reading on across the keyword.
* `FoundAgain`: segments that scanning finds again; kept by a site and by a lexeme in front.
* `scanFrom_patch`: one site put in the place of another, by induction along the scan.
* `scan_reclaused`: one clause put in the place of another.
-/

namespace Typings.Import

open Declaration (braced)

/-! ## Reading on from in front of the import -/

section

variable {depth : Nat} {t u : Text}

/-- The specifier behind a clause depends on where the clause ends only. -/
theorem specifierFrom?_congr
    (h : (readClause? depth true t).map ClauseRead.rest = (readClause? depth true u).map ClauseRead.rest) :
    specifierFrom? depth t = specifierFrom? depth u := by
  have hrest (o : Option ClauseRead) : (o.bind fun r => quoted? (trivia r.rest).2)
      = (o.map ClauseRead.rest).bind fun rest => quoted? (trivia rest).2 := by cases o <;> rfl
  rw [specifierFrom?, specifierFrom?, hrest, hrest, h]

theorem map_rest_join (a : Text) (o : Option ClauseRead) :
    (o.map (ClauseRead.join a)).map ClauseRead.rest = o.map ClauseRead.rest := by cases o <;> rfl

theorem map_rest_hold (a : Text) (o : Option ClauseRead) :
    (o.map (ClauseRead.hold a)).map ClauseRead.rest = o.map ClauseRead.rest := by
  cases o with
  | none => rfl
  | some r => exact congrArg some (ClauseRead.rest_hold a r)

theorem specifierFrom?_trivia {blanks : Text} (h : trivia (blanks ++ t) = (blanks, t)) :
    specifierFrom? depth (blanks ++ t) = specifierFrom? depth t := by
  refine specifierFrom?_congr ?_
  have hbehind := trivia_behind h
  cases t with
  | nil => rw [readClause?_of_nil (congrArg Prod.snd h), readClause?_of_nil (congrArg Prod.snd hbehind)]
  | cons c t =>
      rw [readClause?_of_trivia h, readClause?_of_trivia hbehind]
      split
      · rw [map_rest_hold, map_rest_hold]
      split
      · cases depth with
        | zero => rfl
        | succ d => exact (map_rest_join _ _).trans (map_rest_join _ _).symm
      split
      · rw [map_rest_join, map_rest_join]
      split
      · split
        · rfl
        · rw [map_rest_join, map_rest_join]
      · rfl

/-- The word `type` in front of a clause is passed over. -/
theorem specifierFrom?_type (h : Breaks t) : specifierFrom? depth ("type" ++ t) = specifierFrom? depth t := by
  refine specifierFrom?_congr ?_
  rw [reads_type true depth t h, map_rest_join]

/-- Also the whole modifier is. -/
theorem specifierFrom?_modifier {blanks : Text} {m : Option Text}
    (hblanks : trivia (blanks ++ (m.getD [] ++ t)) = (blanks, m.getD [] ++ t))
    (hm : typeModifier (m.getD [] ++ t) = (m, t)) :
    specifierFrom? depth (blanks ++ (m.getD [] ++ t)) = specifierFrom? depth t := by
  rw [specifierFrom?_trivia hblanks]
  cases m with
  | none => rfl
  | some m =>
      obtain ⟨gap, rfl, hbreaks, htrivia⟩ := typeModifier_eq_some hm
      show specifierFrom? depth ("type" ++ gap ++ t) = _
      rw [List.append_assoc, specifierFrom?_type hbreaks, specifierFrom?_trivia htrivia]

end

/-- A clause that starts with neither `from` nor a comma is read the same when a binding was seen. -/
theorem readClause?_seen {t : Text} {r : ClauseRead} (htrivia : trivia t = ([], t))
    (hcomma : t.head? ≠ some ',') (hfrom : (word t).1 ≠ "from") (h : readClause? 0 false t = some r) :
    readClause? 0 true t = some r := by
  cases t with
  | nil =>
      rw [readClause?_of_nil rfl] at h
      cases h
  | cons c t =>
      -- Between braces it makes no difference; a comma and `from` are where it would.
      rw [readClause?_of_trivia htrivia] at h ⊢
      rw [readClause?_inside 0 false] at h
      have hc : c ≠ ',' := fun he => hcomma (congrArg some he)
      by_cases hident : isIdent c = true
      · have hword : (word (c :: t)).1 = c :: (word t).1 := by
          rw [word, List.takeWhile_cons_of_pos hident]
          rfl
        rw [hword] at hfrom
        rw [beq_eq_false_iff_ne.mpr hfrom] at h ⊢
        simp_all
      · simp_all

namespace ReadImport

variable {t rest : Text} {site : Site} (r : ReadImport t site rest) {b : Bindings}
  (hb : clauseBindings? site.clause = some b) (hdefault : ∀ d ∈ b.default, IsDefault d)

include r hb hdefault

omit r in
theorem head?_ne_comma : site.clause.head? ≠ some ',' := by
  intro hhead
  rcases default_or_brace hb hhead (by decide) with ⟨-, hbrace⟩ | ⟨d, pad, hd, hsplit, -⟩
  · exact absurd hbrace (by decide)
  · obtain ⟨e, v, rfl⟩ := List.exists_cons_of_ne_nil (hdefault d hd).nonempty
    rw [hsplit] at hhead
    obtain rfl := Option.some.inj hhead
    exact absurd ((hdefault _ hd).ident ',' (by simp)) (by decide)

/-- The clause starts with the word `from` only if that is its default binding. -/
theorem default_of_from (h : (word r.read.text).1 = "from") : b.default = some "from".toList := by
  obtain ⟨c, u, hcu, -⟩ := r.exists_token hb
  have htext : r.read.text = site.clause ++ (r.read.link ++ r.read.rest) := by
    rw [r.clause_eq, ← r.text_reclaused]
    rfl
  have hhead : site.clause.head? = some 'f' := by
    have happend := word_append r.read.text
    rw [h, htext, hcu] at happend
    rw [hcu, ← (List.cons.inj happend).1]
    rfl
  rcases default_or_brace hb hhead (by decide) with ⟨-, hbrace⟩ | ⟨d, pad, hd, hsplit, hpad⟩
  · exact absurd hbrace (by decide)
  -- The word is the default binding with what runs into it, and nothing does.
  have hword : (word r.read.text).1 = d ++ (word (pad ++ (r.read.link ++ r.read.rest))).1 := by
    rw [htext, hsplit, List.append_assoc]
    exact List.takeWhile_append_of_pos (hdefault d hd).ident
  have hletter : ∀ c ∈ "from".toList, Text.isBlank c = false ∧ c ≠ ',' := by decide
  have hnothing : (word (pad ++ (r.read.link ++ r.read.rest))).1 = [] := by
    cases pad with
    | nil =>
        refine (word_link r.clause).resolve_right fun hfrom => (hdefault d hd).nonempty ?_
        rw [h, List.nil_append, hfrom] at hword
        exact List.self_eq_append_left.mp hword
    | cons e pad =>
        by_contra hne
        have hident : isIdent e = true := by
          by_contra hi
          exact hne (congrArg Prod.fst (word_of_breaks (breaks_cons.mpr (by simpa using hi))))
        have hmem : e ∈ "from".toList := by
          rw [h, List.cons_append, word, List.takeWhile_cons_of_pos hident] at hword
          rw [hword]
          simp
        obtain ⟨hblank, hcomma⟩ := hletter e hmem
        rcases hpad e rfl with hp | hp
        · rw [hblank] at hp
          cases hp
        · exact hcomma hp
  rw [h, hnothing, List.append_nil] at hword
  rw [hd, ← hword]

variable (htype : b.default = some "type".toList → site.typeOnly = true) {ts : List Text}
  (hts : ∀ t ∈ ts, Neat t)

include htype hts

/-- From in front of the import, no specifier is found across the new clause where none was found across
    the old one. -/
theorem specifierFrom?_reclaused (depth : Nat)
    (h : specifierFrom? depth (r.blanks ++ (r.modifier.getD [] ++ r.read.text)) = none) :
    specifierFrom? depth (r.blanks ++ (r.modifier.getD [] ++ r.reclaused (rewritten b.default ts)))
      = none := by
  rw [specifierFrom?_modifier r.behind r.modified] at h
  rw [specifierFrom?_modifier (r.behind_reclaused hb hdefault ts).2.1
    (r.typeModifier_reclaused hb hdefault ts htype)]
  cases depth with
  | succ d =>
      -- Between braces the word `from` is a name, and the string behind it is no token.
      obtain ⟨hquote, -, hspecified⟩ := isBody_of_quoted? r.quoted
      have hlink := r.link
      rw [hspecified] at hlink
      have hnone : readClause? (d + 1) true r.read.rest = none := by
        refine Option.eq_none_iff_forall_ne_some.mpr fun read hread => ?_
        have htoken := isToken_of_readClause? hlink hread
        simp only [isQuote, Bool.or_eq_true, beq_iff_eq] at hquote
        rcases hquote with hq | hq <;> · rw [hq] at htoken; cases htoken
      rw [specifierFrom?, reclaused, ← readClause?_inside d false, readClause?_rewritten hdefault hts,
        readClause?_from_inside r.clause, hnone]
      rfl
  | zero =>
      have hfrom : b.default = some "from".toList := by
        by_contra hne
        have hseen : readClause? 0 true r.read.text = some r.read := by
          refine readClause?_seen r.ahead ?_ (fun hw => hne (r.default_of_from hb hdefault hw)) r.clause
          obtain ⟨c, u, hcu, -⟩ := r.exists_token hb
          have hcomma := head?_ne_comma hb hdefault
          rw [← r.text_reclaused, reclaused, ← r.clause_eq]
          rwa [hcu] at hcomma ⊢
        rw [specifierFrom?, hseen, Option.bind_some, r.link, r.quoted] at h
        cases h
      -- The default binding ends the clause, and a comma is no string.
      obtain ⟨behind, htext⟩ : ∃ behind, r.reclaused (rewritten (some "from".toList) ts)
          = 'f' :: 'r' :: 'o' :: 'm' :: ',' :: behind :=
        ⟨' ' :: (braced ts ++ (r.read.link ++ r.read.rest)), by simp [reclaused, rewritten]⟩
      have hword : word ('r' :: 'o' :: 'm' :: ',' :: behind) = (['r', 'o', 'm'], ',' :: behind) :=
        word_append_of_breaks (w := ['r', 'o', 'm']) (List.all_eq_true.mp (by decide))
          (breaks_cons.mpr (by decide))
      have hclause : readClause? 0 true (r.reclaused (rewritten b.default ts))
          = some ⟨[], "from", ',' :: behind⟩ := by
        rw [hfrom, htext, readClause?_of_trivia (trivia_of_isIdent (by decide)), hword]
        rfl
      rw [specifierFrom?, hclause]
      rfl

/-- The texts behind the keyword, with the old clause and with the new one. -/
def seam : Seam where
  holds t u := t = r.blanks ++ (r.modifier.getD [] ++ r.read.text) ∧
    u = r.blanks ++ (r.modifier.getD [] ++ r.reclaused (rewritten b.default ts))
  breaks := by
    rintro _ _ ⟨rfl, rfl⟩
    exact ⟨r.breaks, (r.behind_reclaused hb hdefault ts).1⟩
  givesUp := by
    rintro _ _ ⟨rfl, rfl⟩ depth
    exact r.specifierFrom?_reclaused hb hdefault htype hts depth

end ReadImport

/-! ## Scanning the text -/

theorem AlikeTo.atSeam {S : Seam} {a b t u : Text} (h : S.holds a b) (ht : t = Keyword.importing.text ++ a)
    (hu : u = Keyword.importing.text ++ b) : AlikeTo S t u := by
  subst ht hu
  exact .seam h

/-- Static imports have bindings, by their clauses. -/
theorem of_bindings? {site : Site} {b : Bindings} (h : site.bindings? = some b) :
    site.kind = .static ∧ site.keyword = .importing ∧ clauseBindings? site.clause = some b := by
  rw [Site.bindings?] at h
  split at h
  · next hsite => exact ⟨by simp_all, by simp_all, h⟩
  · cases h

/-- The segments are those of a text that is alike up to the seam: scanning finds them again. -/
structure FoundAgain (S : Seam) (property : Bool) (t : Text) (s : Segments) : Prop where
  alike : AlikeTo S t s.text
  scan : scanFrom property s.text = s

section

variable {S : Seam} {t : Text} {property : Bool} {s : Segments}

/-- The seam is further back than a text of this length starts. -/
def Seam.Behind (S : Seam) (n : Nat) : Prop := ∀ a b, S.holds a b → (Keyword.importing.text ++ a).length ≤ n

theorem Seam.Behind.not_atSeam {n : Nat} {u : Text} (h : S.Behind n) (hn : n < t.length) : ¬ AtSeam S t u := by
  rintro ⟨hholds⟩
  exact absurd (h _ _ hholds) (Nat.not_le.mpr hn)

theorem Seam.Behind.length_le {n : Nat} (h : S.Behind n) {a b : Text} (hab : S.holds a b) : a.length ≤ n := by
  have hle := h a b hab
  rw [List.length_append] at hle
  omega

/-- A site in front of the seam is found again. -/
theorem FoundAgain.consSite {site : Site} {rest : Text} (hs : siteAt? property t = some (site, rest))
    (hbehind : S.Behind rest.length) (h : FoundAgain S false rest s) :
    FoundAgain S property t (s.consSite site) := by
  have hne : t ≠ [] := by
    rintro rfl
    exact absurd (siteAt?_rest_lt hs) (Nat.not_lt_zero _)
  -- A site stays alike when its specifier is redirected to itself.
  have hfits : Fits site.specifier (id site.specifier) := fun _ _ hbody => hbody
  have hfirst : AlikeTo S t (site.text ++ s.text) := (lexedSite_of_siteAt? hs).alike hfits h.alike
  have hsame : siteAt? property (site.text ++ s.text) = some (site, s.text) :=
    siteAt?_redirect hfits h.alike hs (hbehind.not_atSeam (siteAt?_rest_lt hs)) fun _ _ => hbehind.length_le
  obtain ⟨rfl, -⟩ := exists_of_siteAt? hs
  refine ⟨by rwa [Segments.text_consSite], ?_⟩
  rw [Segments.text_consSite, scanFrom_of_some (hfirst.ne_nil hne) hsame, h.scan]

/-- A lexeme in front of the seam is passed over again. -/
theorem FoundAgain.prepend (hne : t ≠ []) (hs : siteAt? property t = none)
    (hbehind : S.Behind (lexeme t).2.length) (h : FoundAgain S ((lexeme t).1 == ".") (lexeme t).2 s) :
    FoundAgain S property t (s.prepend (lexeme t).1) := by
  have hfirst := AlikeTo.code hne h.alike
  have hnone := siteAt?_none_of_alike hfirst (hbehind.not_atSeam (lexeme_rest_lt hne)) hs
  refine ⟨by rwa [Segments.text_prepend], ?_⟩
  rw [Segments.text_prepend, scanFrom_of_none (hfirst.ne_nil hne) hnone, lexeme_congr h.alike.head?, h.scan]

end

/-- A site of a text is read where it stands.  When it can be replaced there by another site, in front of
    the same text, then scanning finds the other site, and the sites that the text had. -/
theorem scanFrom_patch {property : Bool} {t gap : Text} {site : Site} {before after : List (Text × Site)}
    (h : (scanFrom property t).sites = before ++ (gap, site) :: after) :
    ∃ rest : Text, rest = Segments.text ⟨after, (scanFrom property t).rest⟩ ∧
      siteAt? false (site.text ++ rest) = some (site, rest) ∧ (site.text ++ rest).length ≤ t.length ∧
      ∀ {S : Seam} {site' : Site}, S.Behind (site.text ++ rest).length →
        AlikeTo S (site.text ++ rest) (site'.text ++ rest) →
        siteAt? false (site'.text ++ rest) = some (site', rest) →
        FoundAgain S property t ⟨before ++ (gap, site') :: after, (scanFrom property t).rest⟩ := by
  fun_induction scanFrom property t generalizing before gap with
  | case1 => simp at h
  | case2 property t hne site₀ rest₀ hs hlt ih =>
      have htext := siteAt?_append hs
      cases before with
      | nil =>
          -- The site that is read here is the one that is replaced.
          obtain ⟨hpair, hafter⟩ := List.cons.inj h
          obtain ⟨rfl, rfl⟩ := Prod.mk.inj hpair
          subst hafter
          obtain ⟨rfl, -⟩ := exists_of_siteAt? hs
          refine ⟨rest₀, (text_scanFrom false rest₀).symm, by rwa [← htext], by rw [← htext],
            fun {S site'} _ halike hsite => ?_⟩
          have hnew : ((scanFrom false rest₀).consSite site').text = site'.text ++ rest₀ := by
            rw [Segments.text_consSite, text_scanFrom]
          show FoundAgain S false t ((scanFrom false rest₀).consSite site')
          rw [← htext] at halike
          refine ⟨by rwa [hnew], ?_⟩
          rw [hnew, scanFrom_of_some (halike.ne_nil hne) hsite]
      | cons p before =>
          -- It is one in front of that.
          obtain ⟨rfl, hsites⟩ := List.cons.inj h
          obtain ⟨rest, hrest, hread, hle, hpatch⟩ := ih hsites
          exact ⟨rest, hrest, hread, hle.trans hlt.le, fun hbehind halike hsite =>
            .consSite hs (fun a b hab => (hbehind a b hab).trans hle) (hpatch hbehind halike hsite)⟩
  | case3 property t hne hs hlt ih =>
      obtain ⟨segments, hsegments⟩ : ∃ s, scanFrom ((lexeme t).1 == ".") (lexeme t).2 = s := ⟨_, rfl⟩
      rw [hsegments] at h ih ⊢
      obtain ⟨sites, last⟩ := segments
      cases sites with
      | nil => simp [Segments.prepend] at h
      | cons p sites =>
          cases before with
          | nil =>
              obtain ⟨hpair, rfl⟩ := List.cons.inj h
              obtain ⟨rfl, rfl⟩ := Prod.mk.inj hpair
              obtain ⟨rest, hrest, hread, hle, hpatch⟩ := @ih p.1 [] rfl
              exact ⟨rest, hrest, hread, hle.trans hlt.le, fun hbehind halike hsite =>
                .prepend hne hs (fun a b hab => (hbehind a b hab).trans hle) (hpatch hbehind halike hsite)⟩
          | cons p' before =>
              obtain ⟨rfl, rfl⟩ := List.cons.inj h
              obtain ⟨rest, hrest, hread, hle, hpatch⟩ := @ih gap (p :: before) rfl
              exact ⟨rest, hrest, hread, hle.trans hlt.le, fun hbehind halike hsite =>
                .prepend hne hs (fun a b hab => (hbehind a b hab).trans hle) (hpatch hbehind halike hsite)⟩

/-- **One clause put in the place of another.** The text has the import with its new clause, and all the
    sites that it had. -/
theorem scan_reclaused {t gap : Text} {site : Site} {before after : List (Text × Site)}
    (h : (scan t).sites = before ++ (gap, site) :: after) {b : Bindings} (hb : site.bindings? = some b)
    (hdefault : ∀ d ∈ b.default, IsDefault d) (htype : b.default = some "type".toList → site.typeOnly = true)
    {ts : List Text} (hts : ∀ t ∈ ts, Neat t) :
    scan (Segments.text
        ⟨before ++ (gap, { site with clause := rewritten b.default ts }) :: after, (scan t).rest⟩)
      = ⟨before ++ (gap, { site with clause := rewritten b.default ts }) :: after, (scan t).rest⟩ := by
  obtain ⟨rest, -, hread, -, hpatch⟩ := scanFrom_patch h
  obtain ⟨hkind, hkeyword, hb⟩ := of_bindings? hb
  obtain ⟨r⟩ := exists_readImport hread hkind hkeyword
  refine (hpatch (S := r.seam hb hdefault htype hts) (fun a c hac => ?_)
    (.atSeam ⟨rfl, rfl⟩ r.site_text (r.text_withClause _)) (r.siteAt?_reclaused hb hdefault htype hts)).scan
  obtain ⟨rfl, -⟩ : a = _ ∧ _ := hac
  exact le_of_eq (congrArg List.length r.site_text.symm)

end Typings.Import
