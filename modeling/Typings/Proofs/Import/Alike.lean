import Typings.Proofs.Import.Lexed

/-!
# `Alike` — texts that differ in their strings, and in one import

Two texts are alike when they are the same lexeme by lexeme, but for the bodies of terminated strings.
Reading gives up, or goes on, at the same places in both, so both have the same sites up to the
specifiers.  Where two texts come to imports that differ, they are alike up to the first of the two
keywords, and the readers do the same on both unless one of them goes on across the keyword: a clause
takes it for a name.

* `Seam`: where texts may differ, behind the keyword `import`; `Seam.none` is for texts that do not.
* `AlikeTo`: the relation; `AlikeTo.prepend`.  `Alike` is the one without a seam.
* `word_of_alike`, `trivia_of_alike`, `quoted?_of_alike`, `readClause?_of_alike`, …: each reader does the
  same on both.
* `siteAt?_of_alike`: a site in one is a site in the other, unless a clause goes across the seam.
-/

namespace Typings.Import

/-! ## Texts alike -/

/-- The specifier behind a clause that is read from a depth on, after a binding. -/
def specifierFrom? (depth : Nat) (t : Text) : Option (Char × Text × Text) :=
  (readClause? depth true t).bind fun r => quoted? (trivia r.rest).2

/-- A place where two texts may differ, directly behind the keyword `import`.  A clause from further in
    front that goes across the keyword finds a specifier in the second text only if it does in the
    first. -/
structure Seam where
  holds : Text → Text → Prop
  breaks : ∀ {t u : Text}, holds t u → Breaks t ∧ Breaks u
  givesUp : ∀ {t u : Text}, holds t u → ∀ depth, specifierFrom? depth t = .none →
    specifierFrom? depth u = .none

/-- No seam at all. -/
def Seam.none : Seam := ⟨fun _ _ => False, False.elim, False.elim⟩

/-- Two texts that are lexed alike up to a seam, if there is one: lexeme by lexeme they are the same, but
    for the bodies of terminated strings. -/
inductive AlikeTo (S : Seam) : Text → Text → Prop where
  | nil : AlikeTo S [] []
  | code {t u : Text} (hne : t ≠ []) (h : AlikeTo S (lexeme t).2 u) : AlikeTo S t ((lexeme t).1 ++ u)
  | string {q : Char} {body body' t u : Text} (hq : isQuote q = true) (hb : IsBody q body)
      (hb' : IsBody q body') (h : AlikeTo S t u) : AlikeTo S (q :: (body ++ q :: t)) (q :: (body' ++ q :: u))
  | seam {t u : Text} (h : S.holds t u) : AlikeTo S (Keyword.importing.text ++ t) (Keyword.importing.text ++ u)

/-- Two texts that are lexed alike to their ends. -/
abbrev Alike : Text → Text → Prop := AlikeTo Seam.none

/-- The texts are at the seam. -/
inductive AtSeam (S : Seam) : Text → Text → Prop where
  | intro {t u : Text} (h : S.holds t u) : AtSeam S (Keyword.importing.text ++ t) (Keyword.importing.text ++ u)

theorem not_atSeam_none {t u : Text} : ¬ AtSeam Seam.none t u := fun ⟨h⟩ => h

variable {S : Seam}

/-- Texts that are alike start with the same character. -/
theorem AlikeTo.head? {t u : Text} (h : AlikeTo S t u) : t.head? = u.head? := by
  cases h with
  | nil => rfl
  | code hne _ =>
      obtain ⟨c, a, ha⟩ := List.exists_cons_of_ne_nil (lexeme_ne_nil hne)
      have happend := lexeme_append t
      rw [ha] at happend ⊢
      rw [← happend]
      rfl
  | string => rfl
  | seam => rfl

/-- Only the empty text is alike to nothing. -/
theorem AlikeTo.eq_nil {u : Text} (h : AlikeTo S [] u) : u = [] := eq_nil_of_head? h.head?

/-- What is alike to some text is not empty. -/
theorem AlikeTo.ne_nil {t u : Text} (h : AlikeTo S t u) (hne : t ≠ []) : u ≠ [] := by
  rintro rfl
  exact hne (List.head?_eq_none_iff.mp h.head?)

/-- Texts that start with no string have the same first lexeme, also at the seam. -/
theorem AlikeTo.lexeme_eq {t u : Text} (h : AlikeTo S t u) (hne : t ≠ [])
    (hq : ∀ c ∈ t.head?, isQuote c = false) :
    (lexeme u).1 = (lexeme t).1 ∧ (AtSeam S t u ∨ AlikeTo S (lexeme t).2 (lexeme u).2) := by
  cases h with
  | nil => exact absurd rfl hne
  | code _ h =>
      rw [lexeme_congr h.head?]
      exact ⟨rfl, .inr h⟩
  | string hquote _ _ _ =>
      rw [hq _ rfl] at hquote
      exact absurd hquote Bool.false_ne_true
  | seam h =>
      obtain ⟨ht, hu⟩ := S.breaks h
      rw [lexeme_keyword .importing ht, lexeme_keyword .importing hu]
      exact ⟨rfl, .inl ⟨h⟩⟩

/-- Code that both texts start with. -/
theorem AlikeTo.prepend {t a r u : Text} (hl : Lexed t a r) (h : AlikeTo S r u) : AlikeTo S t (a ++ u) := by
  induction hl with
  | done t => exact h
  | more hne _ _ ih =>
      rw [List.append_assoc]
      exact .code hne (ih h)

/-! ## Readers on texts alike -/

/-- Texts that are alike start with the same character. -/
theorem AlikeTo.cons {c : Char} {t u : Text} (h : AlikeTo S (c :: t) u) : ∃ v, u = c :: v :=
  List.head?_eq_some_iff.mp h.head?.symm

/-- At the seam both texts go on with the keyword. -/
theorem AtSeam.head? {t u : Text} (h : AtSeam S t u) : t.head? = some 'i' := by
  cases h with
  | intro => rfl

/-- Behind a mark, texts that are alike go on alike. -/
theorem AlikeTo.mark {c : Char} {t u : Text} (h : AlikeTo S (c :: t) u) (hc : isMark c = true) :
    ∃ v, u = c :: v ∧ AlikeTo S t v := by
  obtain ⟨v, rfl⟩ := h.cons
  obtain ⟨-, hrest⟩ := h.lexeme_eq (List.cons_ne_nil c t) fun d hd => by
    obtain rfl := Option.some.inj hd
    exact isQuote_of_isMark hc
  rcases hrest with hseam | hrest
  · obtain rfl : c = 'i' := Option.some.inj hseam.head?
    exact absurd hc (by decide)
  · rw [lexeme_mark hc, lexeme_mark hc] at hrest
    exact ⟨v, rfl, hrest⟩

/-- A word with its first character given. -/
theorem AlikeTo.name {c : Char} {t u : Text} (h : AlikeTo S (c :: t) u) (hc : isIdent c = true) :
    ∃ v, u = c :: v ∧ (word v).1 = (word t).1 ∧
      (AtSeam S (c :: t) (c :: v) ∨ AlikeTo S (word t).2 (word v).2) := by
  obtain ⟨v, rfl⟩ := h.cons
  obtain ⟨heq, hrest⟩ := h.lexeme_eq (List.cons_ne_nil c t) fun d hd => by
    obtain rfl := Option.some.inj hd
    exact isQuote_of_isIdent hc
  rw [lexeme_of_isIdent hc, lexeme_of_isIdent hc] at heq hrest
  exact ⟨v, rfl, (List.cons.inj heq).2, hrest⟩

/-- A word is read the same from both texts, unless they are at the seam. -/
theorem word_of_alike {t u : Text} (h : AlikeTo S t u) :
    AtSeam S t u ∨ ∃ v, word u = ((word t).1, v) ∧ AlikeTo S (word t).2 v := by
  have hcons {c : Char} (hc : isIdent c = true) (a : Text) : word (c :: a) = (c :: (word a).1, (word a).2) := by
    rw [word, List.takeWhile_cons_of_pos hc, List.dropWhile_cons_of_pos hc]
    rfl
  cases t with
  | nil =>
      rw [h.eq_nil]
      exact .inr ⟨[], rfl, .nil⟩
  | cons c t =>
      by_cases hc : isIdent c = true
      · obtain ⟨v, rfl, hword, hrest⟩ := h.name hc
        rw [hcons hc, hcons hc, hword]
        exact hrest.imp_right fun hrest => ⟨_, rfl, hrest⟩
      · obtain ⟨v, rfl⟩ := h.cons
        have hbreaks (a : Text) : Breaks (c :: a) := breaks_cons.mpr (by simpa using hc)
        rw [word_of_breaks (hbreaks t), word_of_breaks (hbreaks v)]
        exact .inr ⟨_, rfl, h⟩

/-- The keyword at the seam, as a word. -/
theorem word_importing {t : Text} (ht : Breaks t) :
    word (Keyword.importing.text ++ t) = (Keyword.importing.text, t) :=
  word_append_of_breaks (List.all_eq_true.mp (by decide)) ht

/-- The first word at the seam is the keyword. -/
theorem AtSeam.word {t u : Text} (h : AtSeam S t u) :
    (Import.word t).1 = Keyword.importing.text ∧ (Import.word u).1 = Keyword.importing.text := by
  cases h with
  | intro h =>
      obtain ⟨ht, hu⟩ := S.breaks h
      rw [word_importing ht, word_importing hu]
      exact ⟨rfl, rfl⟩

/-- What stands behind the keyword at the seam. -/
theorem AtSeam.holds {c : Char} {t u : Text} (h : AtSeam S (c :: t) (c :: u)) :
    S.holds (Import.word t).2 (Import.word u).2 := by
  have hword {t : Text} (ht : Breaks t) : (Import.word (("mport" : Text) ++ t)).2 = t :=
    congrArg Prod.snd (word_append_of_breaks (List.all_eq_true.mp (by decide)) ht)
  cases h with
  | intro h =>
      obtain ⟨ht, hu⟩ := S.breaks h
      exact (hword ht).symm ▸ (hword hu).symm ▸ h

/-- There is something to pass over in front of one text just if there is in front of the other. -/
theorem startsTrivia_of_alike {t u : Text} (h : AlikeTo S t u) : startsTrivia u = startsTrivia t := by
  cases h with
  | nil => rfl
  | seam => rfl
  | @code t v hne h =>
      obtain ⟨c, a, ha⟩ := List.exists_cons_of_ne_nil (lexeme_ne_nil hne)
      have ht : t = c :: (a ++ (lexeme t).2) := by rw [← List.cons_append, ← ha, lexeme_append]
      rw [ha, List.cons_append, startsTrivia_congr c (head?_append_congr a h.head?), ← ht]
  | @string q _ _ _ _ hq _ _ _ =>
      simp only [isQuote, Bool.or_eq_true, beq_iff_eq] at hq
      rcases hq with rfl | rfl <;> rfl

/-- The same blanks and comments are passed over in both texts. -/
theorem trivia_of_alike {t u : Text} (h : AlikeTo S t u) :
    ∃ v, trivia u = ((trivia t).1, v) ∧ AlikeTo S (trivia t).2 v := by
  induction hn : t.length using Nat.strongRecOn generalizing t u with
  | ind n ih =>
      rw [trivia_eq t, trivia_eq u, startsTrivia_of_alike h]
      split
      · rename_i hs
        obtain ⟨hne, hq⟩ := isQuote_of_startsTrivia hs
        obtain ⟨heq, hrest⟩ := h.lexeme_eq hne hq
        have hrest := hrest.resolve_left fun ⟨_⟩ => by cases hs
        obtain ⟨v, hv, halike⟩ := ih _ (hn ▸ lexeme_rest_lt hne) hrest rfl
        exact ⟨v, by rw [heq, hv], halike⟩
      · exact ⟨u, rfl, h⟩

/-- Texts that are alike stay so without the blanks in front of them. -/
theorem dropBlanks_of_alike {t u : Text} (h : AlikeTo S t u) :
    AlikeTo S (t.dropWhile Text.isAsciiBlank) (u.dropWhile Text.isAsciiBlank) := by
  induction t generalizing u with
  | nil =>
      rw [h.eq_nil]
      exact .nil
  | cons c t ih =>
      by_cases hc : Text.isAsciiBlank c = true
      · obtain ⟨v, rfl, hv⟩ := h.mark (isMark_of_isAsciiBlank hc)
        rw [List.dropWhile_cons_of_pos hc, List.dropWhile_cons_of_pos hc]
        exact ih hv
      · obtain ⟨v, rfl⟩ := h.cons
        rw [List.dropWhile_cons_of_neg hc, List.dropWhile_cons_of_neg hc]
        exact h

theorem semicolon_of_head {t : Text} (h : t.head? ≠ some ';') : semicolon t = ([], t) := by
  unfold semicolon
  split
  · exact absurd rfl h
  · rfl

/-- A semicolon is taken from both texts or from none. -/
theorem semicolon_of_alike {t u : Text} (h : AlikeTo S t u) :
    ∃ v, semicolon u = ((semicolon t).1, v) ∧ AlikeTo S (semicolon t).2 v := by
  by_cases ht : t.head? = some ';'
  · obtain ⟨t, rfl⟩ := List.head?_eq_some_iff.mp ht
    obtain ⟨v, rfl, hv⟩ := h.mark (by decide)
    exact ⟨v, rfl, hv⟩
  · rw [semicolon_of_head ht, semicolon_of_head (h.head? ▸ ht)]
    exact ⟨u, rfl, h⟩

theorem lineBreak_of_head {t : Text} (h : t.head? ≠ some '\n') (hr : t.head? ≠ some '\r') :
    lineBreak t = ([], t) := by
  unfold lineBreak
  split
  · exact absurd rfl hr
  · exact absurd rfl h
  · rfl

/-- A carriage return alone is no line break. -/
theorem lineBreak_return {t : Text} (h : t.head? ≠ some '\n') :
    lineBreak ('\r' :: t) = ([], '\r' :: t) := by
  unfold lineBreak
  split
  · rename_i heq
    exact absurd (congrArg List.head? (List.cons.inj heq).2) h
  · rename_i heq
    exact absurd (List.cons.inj heq).1 (by decide)
  · rfl

/-- A line break is taken from both texts or from none. -/
theorem lineBreak_of_alike {t u : Text} (h : AlikeTo S t u) :
    ∃ v, lineBreak u = ((lineBreak t).1, v) ∧ AlikeTo S (lineBreak t).2 v := by
  by_cases hn : t.head? = some '\n'
  · obtain ⟨t, rfl⟩ := List.head?_eq_some_iff.mp hn
    obtain ⟨v, rfl, hv⟩ := h.mark (by decide)
    exact ⟨v, rfl, hv⟩
  by_cases hr : t.head? = some '\r'
  · obtain ⟨t, rfl⟩ := List.head?_eq_some_iff.mp hr
    obtain ⟨v, rfl, hv⟩ := h.mark (by decide)
    by_cases ht : t.head? = some '\n'
    · obtain ⟨t, rfl⟩ := List.head?_eq_some_iff.mp ht
      obtain ⟨w, rfl, hw⟩ := hv.mark (by decide)
      exact ⟨w, rfl, hw⟩
    · rw [lineBreak_return ht, lineBreak_return (hv.head? ▸ ht)]
      exact ⟨_, rfl, h⟩
  · rw [lineBreak_of_head hn hr, lineBreak_of_head (h.head? ▸ hn) (h.head? ▸ hr)]
    exact ⟨u, rfl, h⟩

/-- A statement ends with the same characters in both texts. -/
theorem statementEnd_of_alike {t u : Text} (h : AlikeTo S t u) :
    ∃ v, statementEnd u = ((statementEnd t).1, v) ∧ AlikeTo S (statementEnd t).2 v := by
  obtain ⟨v, hv, halike⟩ := semicolon_of_alike h
  obtain ⟨w, hw, hrest⟩ := lineBreak_of_alike halike
  exact ⟨w, by simp only [statementEnd, hv, hw], hrest⟩

/-! ## Strings -/

/-- A string at the front of texts that start with the same lexeme and go on with the same character. -/
theorem quoted?_congr {c : Char} (hc : isQuote c = true) {t v : Text}
    (h : (stringRest c t).2.head? = v.head?) :
    (quoted? (c :: t) = none ∧ quoted? (c :: ((stringRest c t).1 ++ v)) = none) ∨
      ∃ body, quoted? (c :: t) = some (c, body, (stringRest c t).2) ∧
        quoted? (c :: ((stringRest c t).1 ++ v)) = some (c, body, v) := by
  have hbody := @stringBody_congr c hc t
  rcases hread : stringBody c t with ⟨body, rest⟩
  rw [hread] at hbody
  cases rest with
  | nil =>
      rw [show stringRest c t = (body, []) by simp [stringRest, hread]] at h ⊢
      obtain rfl := eq_nil_of_head? h
      have hagain : stringBody c (body ++ []) = (body, []) := hbody rfl
      exact .inl ⟨by simp [quoted?, hread], by simp only [quoted?, hagain, ite_self]⟩
  | cons d rest =>
      by_cases hd : d = c
      · subst hd
        rw [show stringRest d t = (body ++ [d], rest) by simp [stringRest, hread], List.append_assoc,
          List.singleton_append]
        exact .inr ⟨body, by simp [quoted?, hc, hread],
          quoted?_of_isBody hc (isBody_of_stringBody hc hread) v⟩
      · rw [show stringRest c t = (body, d :: rest) by simp [stringRest, hread, hd]] at h ⊢
        obtain ⟨w, rfl⟩ := List.head?_eq_some_iff.mp h.symm
        have hagain : stringBody c (body ++ d :: w) = (body, d :: w) := hbody rfl
        exact .inl ⟨by simp [quoted?, hread, hd], by simp [quoted?, hagain, hd]⟩

/-- A string is read from both texts or from none; only the bodies may differ. -/
theorem quoted?_of_alike {t u : Text} (h : AlikeTo S t u) :
    (quoted? t = none ∧ quoted? u = none) ∨
      ∃ q body body' r v, quoted? t = some (q, body, r) ∧ quoted? u = some (q, body', v) ∧ AlikeTo S r v := by
  cases h with
  | nil => exact .inl ⟨rfl, rfl⟩
  | seam => exact .inl ⟨rfl, rfl⟩
  | @string q body body' t u hq hb hb' h =>
      exact .inr ⟨q, body, body', t, u, quoted?_of_isBody hq hb t, quoted?_of_isBody hq hb' u, h⟩
  | @code t v hne h =>
      obtain ⟨c, t, rfl⟩ := List.exists_cons_of_ne_nil hne
      cases hc : isQuote c with
      | false =>
          obtain ⟨u, hu⟩ := (AlikeTo.code hne h).cons
          rw [hu]
          exact .inl ⟨by simp [quoted?, hc], by simp [quoted?, hc]⟩
      | true =>
          have hslash : c ≠ '/' := by
            rintro rfl
            exact absurd hc (by decide)
          rw [lexeme_of_ne_slash hslash, if_pos hc] at h ⊢
          rcases quoted?_congr hc h.head? with hnone | ⟨body, ht, hu⟩
          · exact .inl hnone
          · exact .inr ⟨c, body, body, _, v, ht, hu, h⟩

/-! ## Clauses -/

/-- Whether `type` is bound as a name is the same in both texts. -/
theorem bindsType_of_alike {t u : Text} (h : AlikeTo S t u) : bindsType u = bindsType t := by
  rcases word_of_alike h with hseam | ⟨v, hv, halike⟩
  · rw [bindsType, bindsType, hseam.word.1, hseam.word.2]
    rfl
  have hblanks := dropBlanks_of_alike halike
  rw [bindsType, bindsType, hv]
  cases ht : (word t).2.dropWhile Text.isAsciiBlank with
  | nil =>
      rw [ht] at hblanks
      simp only [hblanks.eq_nil]
  | cons c r =>
      rw [ht] at hblanks
      obtain ⟨w, hw⟩ := hblanks.cons
      simp only [hw]

/-- The modifier is read from both texts or from none. -/
theorem typeModifier_of_alike {t u : Text} (h : AlikeTo S t u) :
    ∃ v, typeModifier u = ((typeModifier t).1, v) ∧ AlikeTo S (typeModifier t).2 v := by
  rcases word_of_alike h with hseam | ⟨v, hv, hword⟩
  · rw [typeModifier, typeModifier, hseam.word.1, hseam.word.2]
    exact ⟨u, rfl, h⟩
  obtain ⟨w, hw, htrivia⟩ := trivia_of_alike hword
  have hbinds := bindsType_of_alike htrivia
  simp only [typeModifier, hv, hw, hbinds]
  split
  · split
    · exact ⟨u, rfl, h⟩
    · exact ⟨w, rfl, htrivia⟩
  · exact ⟨u, rfl, h⟩

/-- The same clause, in front of texts alike. -/
structure ClauseRead.Same (S : Seam) (r r' : ClauseRead) : Prop where
  clause : r'.clause = r.clause
  link : r'.link = r.link
  rest : AlikeTo S r.rest r'.rest

theorem ClauseRead.Same.join {r r' : ClauseRead} (h : r.Same S r') (a : Text) :
    (r.join a).Same S (r'.join a) :=
  ⟨congrArg (a ++ ·) h.clause, h.link, h.rest⟩

theorem ClauseRead.Same.hold {r r' : ClauseRead} (h : r.Same S r') (a : Text) :
    (r.hold a).Same S (r'.hold a) := by
  unfold ClauseRead.hold
  rw [h.clause]
  split
  · exact ⟨rfl, congrArg (a ++ ·) h.link, h.rest⟩
  · exact h.join a

/-- Clauses that are read from texts alike: the same, or both go across the seam and end where they would
    when read from behind it. -/
inductive ClauseAlike (S : Seam) (o o' : Option ClauseRead) : Prop where
  | same (h : Option.Rel (ClauseRead.Same S) o o')
  | across {t u : Text} (h : S.holds t u) (depth : Nat)
      (ho : o.map ClauseRead.rest = (readClause? depth true t).map ClauseRead.rest)
      (ho' : o'.map ClauseRead.rest = (readClause? depth true u).map ClauseRead.rest)

/-- What is added to both readings leaves them alike. -/
theorem ClauseAlike.map {f : ClauseRead → ClauseRead} {o o' : Option ClauseRead} (h : ClauseAlike S o o')
    (hf : ∀ {r r' : ClauseRead}, r.Same S r' → (f r).Same S (f r')) (hrest : ∀ r, (f r).rest = r.rest) :
    ClauseAlike S (o.map f) (o'.map f) := by
  have hmap (o : Option ClauseRead) : (o.map f).map ClauseRead.rest = o.map ClauseRead.rest := by
    cases o with
    | none => rfl
    | some r => exact congrArg some (hrest r)
  cases h with
  | same h =>
      cases h with
      | none => exact .same .none
      | some h => exact .same (.some (hf h))
  | across h depth ho ho' => exact .across h depth ((hmap o).trans ho) ((hmap o').trans ho')

theorem ClauseAlike.join {o o' : Option ClauseRead} (h : ClauseAlike S o o') (a : Text) :
    ClauseAlike S (o.map (.join a)) (o'.map (.join a)) :=
  h.map (fun hsame => hsame.join a) fun _ => rfl

theorem ClauseAlike.hold {o o' : Option ClauseRead} (h : ClauseAlike S o o') (a : Text) :
    ClauseAlike S (o.map (.hold a)) (o'.map (.hold a)) :=
  h.map (fun hsame => hsame.hold a) fun r => ClauseRead.rest_hold a r

/-- **Clauses** of texts alike are the same, and so is where reading them gives up, unless they go across
    the seam. -/
theorem readClause?_of_alike {depth : Nat} {seen : Bool} {t u : Text} (h : AlikeTo S t u) :
    ClauseAlike S (readClause? depth seen t) (readClause? depth seen u) := by
  -- The induction is on how the first text is read; blanks do not matter to either, so what is behind them
  -- is kept at hand as `v`.
  obtain ⟨v, hv, halike⟩ := trivia_of_alike h
  fun_induction readClause? depth seen t generalizing u v
  case case1 t heq =>
      rw [heq] at halike
      obtain rfl := halike.eq_nil
      rw [readClause?_of_nil (congrArg Prod.snd hv)]
      exact .same .none
  case case2 t c rest heq blanks hc ih =>
      obtain rfl := beq_iff_eq.mp hc
      rw [heq] at halike
      obtain ⟨w, rfl, hw⟩ := halike.mark (by decide)
      obtain ⟨x, hx, hrest⟩ := trivia_of_alike hw
      rw [readClause?_of_trivia hv, if_pos hc]
      exact (ih hw x hx hrest).hold _
  case case3 seen t c rest heq hc hd =>
      rw [heq] at halike
      obtain ⟨w, rfl⟩ := halike.cons
      rw [readClause?_of_trivia hv, if_neg hc, if_pos hd]
      exact .same .none
  case case4 t c rest heq blanks hc hd d ih =>
      obtain rfl := beq_iff_eq.mp hd
      rw [heq] at halike
      obtain ⟨w, rfl, hw⟩ := halike.mark (by decide)
      obtain ⟨x, hx, hrest⟩ := trivia_of_alike hw
      rw [readClause?_of_trivia hv, if_neg hc, if_pos hd]
      exact (ih hw x hx hrest).join _
  case case5 t c rest heq blanks hc hd hm ih =>
      have hmark : isMark c = true := by
        rw [Bool.or_eq_true, beq_iff_eq, beq_iff_eq] at hm
        rcases hm with rfl | rfl <;> decide
      rw [heq] at halike
      obtain ⟨w, rfl, hw⟩ := halike.mark hmark
      obtain ⟨x, hx, hrest⟩ := trivia_of_alike hw
      rw [readClause?_of_trivia hv, if_neg hc, if_neg hd, if_pos hm]
      exact (ih hw x hx hrest).join _
  case case6 t c rest heq blanks hc hd hm hi name hn =>
      rw [heq] at halike
      obtain ⟨w, rfl, hw, hrest⟩ := halike.name hi
      rw [readClause?_of_trivia hv, if_neg hc, if_neg hd, if_neg hm, if_pos hi, hw, if_pos hn]
      -- A clause ends with `from`, and the word in front of a seam is `import`.
      refine .same (.some ⟨rfl, rfl, hrest.resolve_left fun hseam => ?_⟩)
      obtain rfl : c = 'i' := Option.some.inj hseam.head?
      simp [name] at hn
  case case7 depth seen t c rest heq blanks hc hd hm hi name hn ih =>
      rw [heq] at halike
      obtain ⟨w, rfl, hw, hrest⟩ := halike.name hi
      rw [readClause?_of_trivia hv, if_neg hc, if_neg hd, if_neg hm, if_pos hi, hw, if_neg hn]
      -- A name in the clause may be the word at the seam: then the clause goes across it.
      rcases hrest with hseam | hrest
      · exact ClauseAlike.join (.across hseam.holds depth rfl rfl) _
      · obtain ⟨x, hx, htrivia⟩ := trivia_of_alike hrest
        exact (ih hrest x hx htrivia).join _
  case case8 depth seen t c rest heq hc hd hm hi =>
      rw [heq] at halike
      obtain ⟨w, rfl⟩ := halike.cons
      rw [readClause?_of_trivia hv, if_neg hc, if_neg hd, if_neg hm, if_neg hi]
      exact .same .none

/-! ## Sites -/

/-- The site with another specifier. -/
def Site.withSpecifier (s : Site) (t : Text) : Site := { s with specifier := t }

/-- The same site up to its specifier, in front of texts alike. -/
structure SameSite (S : Seam) (x y : Site × Text) : Prop where
  site : y.1 = x.1.withSpecifier y.1.specifier
  rest : AlikeTo S x.2 y.2

/-- Sites that are read from texts alike: the same, or in the first text the site goes across the seam,
    and where there is none, there is none in the second text either. -/
inductive SiteAlike (S : Seam) (o o' : Option (Site × Text)) : Prop where
  | same (h : Option.Rel (SameSite S) o o')
  | across {t u : Text} (h : S.holds t u) (hlt : ∀ x, o = some x → x.2.length < t.length)
      (hnone : o = none → o' = none)

/-- A string that is read takes characters from the text. -/
theorem quoted?_rest_lt {t body rest : Text} {q : Char} (h : quoted? t = some (q, body, rest)) :
    rest.length < t.length := by
  rw [quoted?_append h]
  simp
  omega

/-- A clause that is read leaves no more than there was. -/
theorem readClause?_rest_le {depth : Nat} {seen : Bool} {t : Text} {r : ClauseRead}
    (h : readClause? depth seen t = some r) : r.rest.length ≤ t.length := by
  rw [readClause?_append h, ClauseRead.text, List.length_append]
  exact Nat.le_add_left _ _

/-- A static site is read from both texts or from none. -/
theorem staticSite?_of_alike {keyword : Keyword} {head t u : Text} (h : AlikeTo S t u) :
    SiteAlike S (staticSite? keyword head t) (staticSite? keyword head u) := by
  obtain ⟨v, hv, hmodifier⟩ := typeModifier_of_alike h
  have hclause := @readClause?_of_alike S 0 false _ _ hmodifier
  unfold staticSite?
  rw [hv]
  dsimp only
  generalize readClause? 0 false (typeModifier t).2 = o at hclause
  generalize readClause? 0 false v = o' at hclause
  cases hclause with
  | same hclause =>
      refine .same ?_
      cases hclause with
      | none => exact .none
      | @some r r' hsame =>
          obtain ⟨w, hw, htrivia⟩ := trivia_of_alike hsame.rest
          simp only [Option.bind_eq_bind, Option.bind_some, hw, hsame.clause, hsame.link]
          rcases quoted?_of_alike htrivia with ⟨ht, hu⟩ | ⟨q, body, body', x, y, ht, hu, hrest⟩
          · rw [ht, hu]
            exact .none
          · rw [ht, hu]
            exact .some ⟨rfl, hrest⟩
  | @across t' u' hholds depth ho ho' =>
      -- The site is there when its specifier is, which is read from behind the seam.
      have hnone (o : Option ClauseRead) : (o.bind fun r => quoted? (trivia r.rest).2)
          = (o.map ClauseRead.rest).bind fun rest => quoted? (trivia rest).2 := by cases o <;> rfl
      have hread (w : Text) : specifierFrom? depth w
          = ((readClause? depth true w).map ClauseRead.rest).bind fun rest => quoted? (trivia rest).2 :=
        hnone _
      have hgives := S.givesUp hholds depth
      rw [hread, hread, ← ho, ← ho', ← hnone, ← hnone] at hgives
      refine .across hholds (fun x hx => ?_) fun hx => ?_
      · obtain ⟨r, hr, hx⟩ := Option.bind_eq_some_iff.mp hx
        obtain ⟨⟨q, body, rest⟩, hq, hx⟩ := Option.bind_eq_some_iff.mp hx
        obtain rfl := Option.some.inj hx
        obtain ⟨r', hr', hrest⟩ := Option.map_eq_some_iff.mp (ho.symm.trans (congrArg (Option.map _) hr))
        have hle := readClause?_rest_le hr'
        have htrivia := trivia_rest_le r.rest
        have hlt := quoted?_rest_lt hq
        rw [hrest] at hle
        exact Nat.lt_of_lt_of_le hlt (htrivia.trans hle)
      · cases o' with
        | none => rfl
        | some r' =>
            have hfirst : (o.bind fun r => quoted? (trivia r.rest).2) = none := by
              cases o with
              | none => rfl
              | some r =>
                  simp only [Option.bind_eq_bind, Option.bind_some] at hx ⊢
                  cases hq : quoted? (trivia r.rest).2 with
                  | none => rfl
                  | some _ =>
                      rw [hq] at hx
                      cases hx
            have hsecond : quoted? (trivia r'.rest).2 = none := hgives hfirst
            simp only [Option.bind_eq_bind, Option.bind_some, hsecond]
            rfl

/-- An import for its effects is read from both texts or from none. -/
theorem sideEffectSite?_of_alike {head t u : Text} (h : AlikeTo S t u) :
    SiteAlike S (sideEffectSite? head t) (sideEffectSite? head u) := by
  unfold sideEffectSite?
  rcases quoted?_of_alike h with ⟨ht, hu⟩ | ⟨q, body, body', x, y, ht, hu, hrest⟩
  · rw [ht, hu]
    exact .same .none
  · obtain ⟨v, hv, hend⟩ := statementEnd_of_alike hrest
    rw [ht, hu]
    simp only [Option.bind_eq_bind, Option.bind_some, hv]
    exact .same (.some ⟨rfl, hend⟩)

/-- A dynamic import is read from both texts or from none. -/
theorem dynamicSite?_of_alike {head t u : Text} (h : AlikeTo S t u) :
    SiteAlike S (dynamicSite? head t) (dynamicSite? head u) := by
  obtain ⟨v, hv, htrivia⟩ := trivia_of_alike h
  unfold dynamicSite?
  rw [hv]
  dsimp only
  rcases quoted?_of_alike htrivia with ⟨ht, hu⟩ | ⟨q, body, body', x, y, ht, hu, hrest⟩
  · rw [ht, hu]
    exact .same .none
  obtain ⟨w, hw, hafter⟩ := trivia_of_alike hrest
  rw [ht, hu]
  simp only [Option.bind_eq_bind, Option.bind_some, hw]
  by_cases hclose : (trivia x).2.head? = some ')'
  · obtain ⟨r, hr⟩ := List.head?_eq_some_iff.mp hclose
    rw [hr] at hafter ⊢
    obtain ⟨v', rfl, hv'⟩ := hafter.mark (by decide)
    exact .same (.some ⟨rfl, hv'⟩)
  · have hopen : w.head? ≠ some ')' := hafter.head? ▸ hclose
    split
    · rename_i heq
      exact absurd (by rw [heq]; rfl) hclose
    · split
      · exact absurd rfl hopen
      · exact .same .none

/-- Behind `import`, both texts have the same site. -/
theorem importSite?_of_alike {t u : Text} (h : AlikeTo S t u) :
    SiteAlike S (importSite? t) (importSite? u) := by
  obtain ⟨v, hv, htrivia⟩ := trivia_of_alike h
  unfold importSite?
  rw [hv]
  dsimp only
  cases hr : (trivia t).2 with
  | nil =>
      rw [hr] at htrivia
      rw [htrivia.eq_nil]
      exact .same .none
  | cons c r =>
      rw [hr] at htrivia
      obtain ⟨w, rfl⟩ := htrivia.cons
      dsimp only
      split
      · rename_i hc
        obtain rfl := beq_iff_eq.mp hc
        obtain ⟨w', hw', hopen⟩ := htrivia.mark (by decide)
        obtain rfl := (List.cons.inj hw').2
        exact dynamicSite?_of_alike hopen
      · split
        · exact sideEffectSite?_of_alike htrivia
        · split
          · exact staticSite?_of_alike htrivia
          · exact .same .none

/-- Both texts start as re-exports do, or none. -/
theorem reexports_of_alike {t u : Text} (h : AlikeTo S t u) : reexports u = reexports t := by
  rcases word_of_alike h with hseam | ⟨v, hv, hword⟩
  · obtain ⟨t', ht⟩ := List.head?_eq_some_iff.mp hseam.head?
    obtain ⟨u', hu⟩ := List.head?_eq_some_iff.mp (h.head?.symm.trans hseam.head?)
    rw [reexports, reexports, hseam.word.1, hseam.word.2, ht, hu]
    rfl
  have hahead : AlikeTo S (if (word t).1 == "type" then (word t).2.dropWhile Text.isAsciiBlank else t)
      (if (word t).1 == "type" then v.dropWhile Text.isAsciiBlank else u) := by
    split
    · exact dropBlanks_of_alike hword
    · exact h
  unfold reexports
  rw [hv]
  dsimp only
  generalize (if (word t).1 == "type" then (word t).2.dropWhile Text.isAsciiBlank else t) = a at hahead
  generalize (if (word t).1 == "type" then v.dropWhile Text.isAsciiBlank else u) = b at hahead
  cases a with
  | nil => rw [hahead.eq_nil]
  | cons c a =>
      obtain ⟨b, rfl⟩ := hahead.cons
      rfl

/-- Behind `export`, both texts have the same site. -/
theorem exportSite?_of_alike {t u : Text} (h : AlikeTo S t u) :
    SiteAlike S (exportSite? t) (exportSite? u) := by
  obtain ⟨v, hv, htrivia⟩ := trivia_of_alike h
  simp only [exportSite?, hv, reexports_of_alike htrivia]
  split
  · exact staticSite?_of_alike htrivia
  · exact .same .none

/-- Behind any keyword, both texts have the same site. -/
theorem siteAfter?_of_alike (k : Keyword) {t u : Text} (h : AlikeTo S t u) :
    SiteAlike S (siteAfter? k t) (siteAfter? k u) := by
  cases k with
  | importing => exact importSite?_of_alike h
  | exporting => exact exportSite?_of_alike h

/-- A string is no keyword. -/
theorem keyword?_of_isQuote {c : Char} (hc : isQuote c = true) (t : Text) :
    keyword? (lexeme (c :: t)).1 = none := by
  have hslash : c ≠ '/' := by
    rintro rfl
    exact absurd hc (by decide)
  rw [lexeme_of_ne_slash hslash, if_pos hc]
  exact keyword?_eq_none_of_mem (c := c) (by simp) (quote_ne hc).2.2.2

/-- **Texts alike have the same site** in front, up to its specifier, or none, unless they are at the seam
    or the site goes across it. -/
theorem siteAt?_of_alike {property : Bool} {t u : Text} (h : AlikeTo S t u) (hseam : ¬ AtSeam S t u) :
    SiteAlike S (siteAt? property t) (siteAt? property u) := by
  unfold siteAt?
  split
  · exact .same .none
  cases t with
  | nil =>
      rw [h.eq_nil]
      exact .same .none
  | cons c t =>
      cases hc : isQuote c with
      | true =>
          obtain ⟨v, rfl⟩ := h.cons
          rw [keyword?_of_isQuote hc, keyword?_of_isQuote hc]
          exact .same .none
      | false =>
          obtain ⟨heq, hrest⟩ := h.lexeme_eq (List.cons_ne_nil c t) fun d hd => by
            obtain rfl := Option.some.inj hd
            exact hc
          rw [heq]
          cases keyword? (lexeme (c :: t)).1 with
          | none => exact .same .none
          | some k => exact siteAfter?_of_alike k (hrest.resolve_left hseam)

section

variable {property : Bool} {t u : Text} (h : AlikeTo S t u) (hseam : ¬ AtSeam S t u)

include h hseam

/-- Where one text has no site, the other has none. -/
theorem siteAt?_none_of_alike (hs : siteAt? property t = none) : siteAt? property u = none := by
  have hrel := @siteAt?_of_alike S property _ _ h hseam
  rw [hs] at hrel
  cases hrel with
  | same hrel =>
      generalize siteAt? property u = read at hrel
      cases hrel with
      | none => rfl
  | across _ _ hnone => exact hnone rfl

/-- A site that ends in front of the seam. -/
theorem siteAt?_some_of_alike {rest : Text} {s : Site} (hs : siteAt? property t = some (s, rest))
    (hle : ∀ t' u', S.holds t' u' → t'.length ≤ rest.length) :
    ∃ body v, siteAt? property u = some (s.withSpecifier body, v) ∧ AlikeTo S rest v := by
  have hrel := @siteAt?_of_alike S property _ _ h hseam
  rw [hs] at hrel
  cases hrel with
  | same hrel =>
      generalize siteAt? property u = read at hrel
      cases hrel with
      | @some _ y hsame => exact ⟨y.1.specifier, y.2, by rw [← hsame.site], hsame.rest⟩
  | across hholds hlt _ => exact absurd (hlt _ rfl) (Nat.not_lt.mpr (hle _ _ hholds))

end

end Typings.Import
