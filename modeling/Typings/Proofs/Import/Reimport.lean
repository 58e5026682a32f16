import Typings.Proofs.Import.Reclause

/-!
# `Reimport` — an import with another clause

A static import is read part by part: trivia behind its keyword, a modifier, a clause, a `from` with the
specifier behind it.  Each part is read up to where the next one starts, so the clause can be replaced by one
that is put together from a default binding and named ones; the other parts are read as they were, but for a
default binding `type`, which is taken for the modifier when there is none.

* `ReadImport`: the parts of a static import; `exists_readImport`, `ReadImport.siteAt?`.
* `rewritten`: the clause of a default binding and named ones.
* `typeModifier_reclaused`, `behind_reclaused`: the parts in front of the new clause.
* `siteAt?_reclaused`: the import is read again, with the new clause.
-/

namespace Typings.Import

open Declaration (braced)

/-! ## How an import was read -/

/-- A static import as it was read: trivia behind the keyword, the modifier, the clause, and the specifier
    behind more trivia. -/
structure ReadImport (t : Text) (site : Site) (rest : Text) where
  blanks : Text
  modifier : Option Text
  read : ClauseRead
  gap : Text
  quote : Char
  specified : Text
  text : t = Keyword.importing.text ++ (blanks ++ (modifier.getD [] ++ read.text))
  breaks : Breaks (blanks ++ (modifier.getD [] ++ read.text))
  behind : trivia (blanks ++ (modifier.getD [] ++ read.text)) = (blanks, modifier.getD [] ++ read.text)
  starts : ∃ c u, modifier.getD [] ++ read.text = c :: u ∧ (isIdent c || c == '\x7b' || c == '*') = true
  modified : typeModifier (modifier.getD [] ++ read.text) = (modifier, read.text)
  clause : readClause? 0 false read.text = some read
  link : trivia read.rest = (gap, specified)
  quoted : quoted? specified = some (quote, site.specifier, rest)
  site_eq : site =
    { kind := .static
      keyword := .importing
      typeOnly := modifier.isSome
      head := Keyword.importing.text ++ blanks ++ modifier.getD []
      clause := read.clause
      link := read.link ++ gap ++ [quote]
      specifier := site.specifier
      tail := [quote] }

theorem isQuote_of_starts {c : Char} (h : (isIdent c || c == '\x7b' || c == '*') = true) :
    (c == '(') = false ∧ isQuote c = false := by
  simp only [Bool.or_eq_true, beq_iff_eq] at h
  rcases h with (h | rfl) | rfl
  · exact ⟨beq_eq_false_iff_ne.mpr (ne_of_isIdent h (by decide)), isQuote_of_isIdent h⟩
  all_goals decide

theorem isToken_of_starts {c : Char} (h : (isIdent c || c == '\x7b' || c == '*') = true) :
    isToken c = true := by
  simp only [isToken, Bool.or_eq_true] at h ⊢
  rcases h with (h | h) | h <;> simp [h]

section

variable {t rest : Text} {site : Site}

/-- **Every static import** of a text was read like this. -/
theorem exists_readImport {property : Bool} (h : siteAt? property t = some (site, rest))
    (hkind : site.kind = .static) (hkeyword : site.keyword = .importing) :
    Nonempty (ReadImport t site rest) := by
  obtain ⟨-, k, hk, hsite⟩ := exists_of_siteAt? h
  have htext : k.text ++ (lexeme t).2 = t := by rw [text_of_keyword? hk, lexeme_append]
  have hbreaks := breaks_of_keyword? hk
  generalize (lexeme t).2 = u at htext hbreaks hsite
  cases siteRead_of_siteAfter? hsite with
  | dynamic _ hread =>
      obtain ⟨q, specifier, after, -, -, rfl⟩ := exists_of_dynamicSite? hread
      cases hkind
  | sideEffect _ _ hread =>
      obtain ⟨q, specifier, after, -, -, rfl⟩ := exists_of_sideEffectSite? hread
      cases hkind
  | reexported _ hread =>
      obtain ⟨read, q, specifier, -, -, rfl⟩ := exists_of_staticSite? hread
      cases hkeyword
  | @imported c after hnext hstarts hread =>
      obtain ⟨read, q, specifier, hclause, hq, rfl⟩ := exists_of_staticSite? hread
      -- What is behind the keyword is the trivia, the modifier and the text that the clause is read from.
      have hmodifier : (typeModifier (trivia u).2).1.getD [] ++ read.text = (trivia u).2 := by
        rw [← readClause?_append hclause, typeModifier_append]
      have hbehind : (trivia u).1 ++ ((typeModifier (trivia u).2).1.getD [] ++ read.text) = u := by
        rw [hmodifier, trivia_append]
      exact ⟨{
        blanks := (trivia u).1
        modifier := (typeModifier (trivia u).2).1
        read := read
        gap := (trivia read.rest).1
        quote := q
        specified := (trivia read.rest).2
        text := by rw [hbehind, htext]
        breaks := by rwa [hbehind]
        behind := by rw [hbehind, hmodifier]
        starts := ⟨c, after, hmodifier.trans hnext, hstarts⟩
        modified := by rw [hmodifier, ← readClause?_append hclause]
        clause := by rwa [← readClause?_append hclause]
        link := rfl
        quoted := hq
        site_eq := rfl }⟩

/-- And what is read like this is an import. -/
theorem ReadImport.siteAt? (r : ReadImport t site rest) : Import.siteAt? false t = some (site, rest) := by
  obtain ⟨c, u, hfront, hstarts⟩ := r.starts
  obtain ⟨hparen, hquote⟩ := isQuote_of_starts hstarts
  have hbehind := r.behind
  have hmodified := r.modified
  rw [r.text, siteAt?_keyword .importing r.breaks, siteAfter?, importSite?, hbehind]
  rw [hfront] at hmodified ⊢
  simp only [hparen, hquote, hstarts, staticSite?, hmodified, r.clause, Option.bind_eq_bind, Option.bind_some,
    r.link, r.quoted, Option.pure_def, if_true]
  conv_rhs => rw [r.site_eq]
  rfl

/-- The text of an import, part by part. -/
theorem ReadImport.site_text (r : ReadImport t site rest) :
    site.text ++ rest = Keyword.importing.text ++ (r.blanks ++ (r.modifier.getD [] ++ r.read.text)) :=
  (siteAt?_append r.siteAt?).symm.trans r.text

end

/-! ## A clause that is put together -/

/-- The clause of a default binding, if there is one, and named bindings. -/
def rewritten (default : Option Text) (ts : List Text) : Text :=
  (match default with
    | some d => d ++ ", "
    | none => []) ++ braced ts

section

variable {default : Option Text} (hdefault : ∀ d ∈ default, IsDefault d) (ts : List Text)

include hdefault

/-- Its first word is the default binding, and what stands behind it is a mark. -/
theorem word_rewritten (t : Text) : ∃ c u, word (rewritten default ts ++ t) = (default.getD [], c :: u) ∧
    (c = ',' ∨ c = '\x7b') := by
  cases default with
  | none => exact ⟨'\x7b', _, word_of_breaks (breaks_cons.mpr (by decide)), .inr rfl⟩
  | some d =>
      refine ⟨',', ' ' :: (braced ts ++ t), ?_, .inl rfl⟩
      have hword := word_append_of_breaks (t := ',' :: ' ' :: (braced ts ++ t)) (hdefault d rfl).ident
        (breaks_cons.mpr (by decide))
      simpa [rewritten] using hword

/-- It starts with a token. -/
theorem exists_rewritten :
    ∃ c u, rewritten default ts = c :: u ∧ (isIdent c || c == '\x7b' || c == '*') = true := by
  cases default with
  | none => exact ⟨'\x7b', _, rfl, rfl⟩
  | some d =>
      have hd := hdefault d rfl
      obtain ⟨c, u, rfl⟩ := List.exists_cons_of_ne_nil hd.nonempty
      exact ⟨c, u ++ ", " ++ braced ts, rfl, by simp [hd.ident c (by simp)]⟩

/-- No string stands behind a first word `from`. -/
theorem bindsType_rewritten (t : Text) : bindsType (rewritten default ts ++ t) = false := by
  obtain ⟨c, u, hword, hc⟩ := word_rewritten hdefault ts t
  rw [bindsType, hword]
  rcases hc with rfl | rfl
  · exact Bool.and_false _
  · exact Bool.and_false _

variable {ts} (hts : ∀ t ∈ ts, Neat t)

include hts

theorem readClause?_rewritten (depth : Nat) (t : Text) :
    readClause? depth false (rewritten default ts ++ t)
      = (readClause? depth true t).map (.join (rewritten default ts)) := by
  cases default with
  | none => exact readClause?_braced hts depth false t
  | some d => exact readClause?_both hts (hdefault d rfl) depth t

theorem clauseBindings?_rewritten : clauseBindings? (rewritten default ts) = some ⟨default, some ts⟩ := by
  cases default with
  | none => exact clauseBindings?_braced hts
  | some d => exact clauseBindings?_both hts (hdefault d rfl)

end

/-! ## The modifier -/

/-- A modifier is the word `type`, with the trivia behind it. -/
theorem typeModifier_eq_some {t m rest : Text} (h : typeModifier t = (some m, rest)) :
    ∃ blanks : Text, m = "type" ++ blanks ∧ Breaks (blanks ++ rest) ∧
      trivia (blanks ++ rest) = (blanks, rest) := by
  have happend := word_append t
  have hbreaks := breaks_word t
  have hword := trivia_append (word t).2
  rw [typeModifier] at h
  split at h
  · next htype =>
    dsimp only at h
    split at h
    · cases h
    · obtain ⟨hm, rfl⟩ := Prod.mk.inj h
      refine ⟨(trivia (word t).2).1, ?_, by rw [hword]; exact hbreaks, by rw [hword]⟩
      rw [← Option.some.inj hm, beq_iff_eq.mp htype]
  · cases h

/-- A modifier in front of a text that does not bind `type`. -/
theorem typeModifier_type {blanks rest : Text} (hbreaks : Breaks (blanks ++ rest))
    (htrivia : trivia (blanks ++ rest) = (blanks, rest)) (hbinds : bindsType rest = false) :
    typeModifier ("type" ++ blanks ++ rest) = (some ("type" ++ blanks), rest) := by
  have hword : word ("type" ++ blanks ++ rest) = ("type".toList, blanks ++ rest) := by
    rw [List.append_assoc]
    exact word_append_of_breaks (List.all_eq_true.mp (by decide)) hbreaks
  rw [typeModifier, hword, if_pos (beq_self_eq_true _), htrivia]
  simp [hbinds]

/-! ## The import with another clause -/

namespace ReadImport

variable {t rest : Text} {site : Site} (r : ReadImport t site rest)

/-- There are no trivia in front of the clause. -/
theorem ahead : trivia r.read.text = ([], r.read.text) := by
  have hmodified := r.modified
  cases hm : r.modifier with
  | none =>
      have hfront := trivia_behind r.behind
      rw [hm] at hmodified hfront
      exact hfront
  | some m =>
      rw [hm] at hmodified
      obtain ⟨blanks, -, -, htrivia⟩ := typeModifier_eq_some hmodified
      exact trivia_behind htrivia

theorem clause_eq : site.clause = r.read.clause := congrArg Site.clause r.site_eq

/-- The text of the import from its clause on, with another clause. -/
def reclaused (clause : Text) : Text := clause ++ (r.read.link ++ r.read.rest)

/-- The text of the import with another clause. -/
theorem text_withClause (clause : Text) : ({ site with clause := clause } : Site).text ++ rest
    = Keyword.importing.text ++ (r.blanks ++ (r.modifier.getD [] ++ r.reclaused clause)) := by
  have hhead : site.head = Keyword.importing.text ++ r.blanks ++ r.modifier.getD [] :=
    congrArg Site.head r.site_eq
  have htext := r.site_text
  have hbehind : site.link ++ (site.specifier ++ (site.tail ++ rest)) = r.read.link ++ r.read.rest := by
    simpa [Site.text, ClauseRead.text, hhead, ← r.clause_eq] using htext
  simp only [Site.text, hhead, reclaused, ← hbehind, List.append_assoc]

theorem text_reclaused : r.reclaused r.read.clause = r.read.text := (List.append_assoc _ _ _).symm

variable {b : Bindings} (hb : clauseBindings? site.clause = some b)

include r hb

/-- The clause starts with a token. -/
theorem exists_token : ∃ c u, site.clause = c :: u ∧ isToken c = true := by
  have hne : site.clause ≠ [] := by
    intro hnil
    rw [hnil] at hb
    cases hb
  obtain ⟨c, u, hcu⟩ := List.exists_cons_of_ne_nil hne
  have htext : r.read.text = c :: (u ++ (r.read.link ++ r.read.rest)) := by
    rw [← r.text_reclaused, reclaused, ← r.clause_eq, hcu]
    rfl
  have hclause := r.clause
  have hahead := r.ahead
  rw [htext] at hclause hahead
  exact ⟨c, u, hcu, isToken_of_readClause? hahead hclause⟩

variable (hdefault : ∀ d ∈ b.default, IsDefault d) (ts : List Text)

include hdefault

/-- A clause with a default binding starts with an identifier. -/
theorem isIdent_of_default {d : Text} (hd : b.default = some d) :
    ∃ c u, site.clause = c :: u ∧ isIdent c = true := by
  obtain ⟨c, u, hcu, htoken⟩ := r.exists_token hb
  refine ⟨c, u, hcu, ?_⟩
  cases hblank : Text.isBlank c with
  | true =>
      -- A blank that is a token is part of an identifier.
      simp only [isToken, Bool.or_eq_true, beq_iff_eq] at htoken
      rcases htoken with (((hi | rfl) | rfl) | rfl) | rfl
      · exact hi
      all_goals exact absurd hblank (by decide)
  | false =>
      rcases default_or_brace hb (by rw [hcu]; rfl) hblank with ⟨hnone, -⟩ | ⟨d', pad, hd', hsplit, -⟩
      · rw [hd] at hnone
        cases hnone
      · obtain ⟨e, v, rfl⟩ := List.exists_cons_of_ne_nil (hdefault d' hd').nonempty
        obtain ⟨rfl, -⟩ := List.cons.inj (hcu.symm.trans hsplit)
        exact (hdefault _ hd').ident c (by simp)

/-- Where no identifier runs into the clause, none runs into the other one. -/
theorem breaks_reclaused {front : Text} (h : Breaks (front ++ r.read.text)) :
    Breaks (front ++ r.reclaused (rewritten b.default ts)) := by
  cases front with
  | cons c front => exact breaks_cons.mpr (breaks_cons.mp h)
  | nil =>
      cases hd : b.default with
      | none => exact breaks_cons.mpr (by decide)
      | some d =>
          obtain ⟨c, u, hcu, hident⟩ := r.isIdent_of_default hb hdefault hd
          rw [← r.text_reclaused, reclaused, ← r.clause_eq, hcu] at h
          rw [breaks_cons.mp h] at hident
          cases hident

/-- Trivia in front of the clause are trivia in front of the other one. -/
theorem trivia_reclaused {front : Text} (h : trivia (front ++ r.read.text) = (front, r.read.text)) :
    trivia (front ++ r.reclaused (rewritten b.default ts))
      = (front, r.reclaused (rewritten b.default ts)) := by
  obtain ⟨c, u, hcu, -⟩ := r.exists_token hb
  obtain ⟨e, v, hev, he⟩ := exists_rewritten hdefault ts
  have htext : r.read.text = c :: (u ++ (r.read.link ++ r.read.rest)) := by
    rw [← r.text_reclaused, reclaused, ← r.clause_eq, hcu]
    rfl
  rw [reclaused, hev, List.cons_append]
  rw [htext] at h
  have htoken := isToken_of_starts he
  exact trivia_token h (isAsciiBlank_of_isToken htoken) (slash_ne_of_isToken htoken)

/-- The modifier is read as it was, unless there was none and the default binding is called `type`. -/
theorem typeModifier_reclaused (htype : b.default = some "type".toList → site.typeOnly = true) :
    typeModifier (r.modifier.getD [] ++ r.reclaused (rewritten b.default ts))
      = (r.modifier, r.reclaused (rewritten b.default ts)) := by
  have hmodified := r.modified
  cases hm : r.modifier with
  | none =>
      have htypeOnly : site.typeOnly = r.modifier.isSome := congrArg Site.typeOnly r.site_eq
      obtain ⟨c, u, hword, -⟩ := word_rewritten hdefault ts (r.read.link ++ r.read.rest)
      have hne : b.default.getD [] ≠ "type" := by
        intro he
        cases hd : b.default with
        | none =>
            rw [hd] at he
            cases he
        | some d =>
            rw [hd] at he
            rw [htype (hd.trans (congrArg some he)), hm] at htypeOnly
            cases htypeOnly
      show typeModifier (rewritten b.default ts ++ (r.read.link ++ r.read.rest)) = _
      rw [typeModifier, hword, if_neg (by simpa using hne)]
      rfl
  | some m =>
      rw [hm] at hmodified
      obtain ⟨blanks, rfl, hbreaks, htrivia⟩ := typeModifier_eq_some hmodified
      exact typeModifier_type (r.breaks_reclaused hb hdefault ts hbreaks)
        (r.trivia_reclaused hb hdefault ts htrivia) (bindsType_rewritten hdefault ts _)

/-- What stands between the keyword and the clause is read as it was. -/
theorem behind_reclaused :
    Breaks (r.blanks ++ (r.modifier.getD [] ++ r.reclaused (rewritten b.default ts))) ∧
      trivia (r.blanks ++ (r.modifier.getD [] ++ r.reclaused (rewritten b.default ts)))
        = (r.blanks, r.modifier.getD [] ++ r.reclaused (rewritten b.default ts)) ∧
      ∃ c u, r.modifier.getD [] ++ r.reclaused (rewritten b.default ts) = c :: u ∧
        (isIdent c || c == '\x7b' || c == '*') = true := by
  have hbreaks := r.breaks
  have hbehind := r.behind
  obtain ⟨c, u, hfront, hstarts⟩ := r.starts
  generalize r.modifier.getD [] = m at hbreaks hbehind hfront ⊢
  cases m with
  | nil =>
      obtain ⟨e, v, hev, he⟩ := exists_rewritten hdefault ts
      exact ⟨r.breaks_reclaused hb hdefault ts hbreaks, r.trivia_reclaused hb hdefault ts hbehind, e, _,
        congrArg (· ++ _) hev, he⟩
  | cons e m =>
      -- The modifier starts with the same character as before.
      obtain ⟨rfl, -⟩ := List.cons.inj hfront
      have htoken := isToken_of_starts hstarts
      refine ⟨?_, trivia_token hbehind (isAsciiBlank_of_isToken htoken) (slash_ne_of_isToken htoken), e, _, rfl,
        hstarts⟩
      generalize r.blanks = blanks at hbreaks
      cases blanks with
      | nil => exact breaks_cons.mpr (breaks_cons.mp hbreaks)
      | cons _ _ => exact breaks_cons.mpr (breaks_cons.mp hbreaks)

variable (htype : b.default = some "type".toList → site.typeOnly = true) {ts} (hts : ∀ t ∈ ts, Neat t)

include htype hts

/-- **The import is read with the clause that was put in its place.** -/
theorem siteAt?_reclaused :
    Import.siteAt? false (({ site with clause := rewritten b.default ts } : Site).text ++ rest)
      = some ({ site with clause := rewritten b.default ts }, rest) := by
  obtain ⟨hbreaks, hbehind, hstarts⟩ := r.behind_reclaused hb hdefault ts
  have hread : readClause? 0 false (r.reclaused (rewritten b.default ts))
      = some ⟨rewritten b.default ts, r.read.link, r.read.rest⟩ := by
    rw [reclaused, readClause?_rewritten hdefault hts, readClause?_from r.clause, Option.map_some,
      ClauseRead.join, List.append_nil]
  have htext : (⟨rewritten b.default ts, r.read.link, r.read.rest⟩ : ClauseRead).text
      = r.reclaused (rewritten b.default ts) := List.append_assoc _ _ _
  have hnew : ReadImport (({ site with clause := rewritten b.default ts } : Site).text ++ rest)
      { site with clause := rewritten b.default ts } rest :=
    { blanks := r.blanks
      modifier := r.modifier
      read := ⟨rewritten b.default ts, r.read.link, r.read.rest⟩
      gap := r.gap
      quote := r.quote
      specified := r.specified
      text := by rw [r.text_withClause, htext]
      breaks := by rw [htext]; exact hbreaks
      behind := by rw [htext]; exact hbehind
      starts := by rw [htext]; exact hstarts
      modified := by rw [htext]; exact r.typeModifier_reclaused hb hdefault ts htype
      clause := by rw [htext]; exact hread
      link := r.link
      quoted := r.quoted
      site_eq := by conv_lhs => rw [r.site_eq] }
  exact hnew.siteAt?

end ReadImport

end Typings.Import
