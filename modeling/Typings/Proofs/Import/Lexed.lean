import Typings.Proofs.Import.Soundness

/-!
# `Lexed` — text read in whole lexemes

A reader stops where its text stops, and what it has taken does not depend on what stands there, but for
the character it stops at.  So what was read as whole lexemes from one text is read the same from any
other that goes on with the same character.

* `lexeme_congr`: the first lexeme, whatever follows it.
* `Lexed t a r`: whole lexemes that are no strings, taken from `t`, leave `r`.
* `lexed_word`, `lexed_trivia`, `lexed_readClause?`, …: the readers take whole lexemes.
* `IsBody`: a text that is read as the body of a string, whatever follows its quote.
* `lexedSite_of_siteAt?`: a site is a string with whole lexemes of code around it.
-/

namespace Typings.Import

/-! ## The first lexeme, whatever follows it -/

/-- Two texts that start with the same character do so behind any text. -/
theorem head?_append_congr (a : Text) {r u : Text} (h : r.head? = u.head?) :
    (a ++ u).head? = (a ++ r).head? := by
  cases a with
  | nil => exact h.symm
  | cons c a => rfl

theorem eq_nil_of_head? {u : Text} (h : ([] : Text).head? = u.head?) : u = [] :=
  List.head?_eq_none_iff.mp h.symm

/-- A word does not depend on what follows it but for the next character. -/
theorem word_congr {t u : Text} (h : (word t).2.head? = u.head?) :
    word ((word t).1 ++ u) = ((word t).1, u) := by
  refine word_append_of_breaks (fun c => isIdent_of_mem_word) fun c hc => ?_
  rw [← h] at hc
  exact breaks_word t c hc

/-- A line comment does not depend on what follows it but for the next character. -/
theorem lineComment_congr {t u : Text} (h : (lineComment t).2.head? = u.head?) :
    lineComment ((lineComment t).1 ++ u) = ((lineComment t).1, u) := by
  have hbody : ∀ c ∈ (lineComment t).1, (c != '\n') = true := by
    intro c hc
    exact List.mem_takeWhile_imp (p := (· != '\n')) hc
  have hend : u.takeWhile (· != '\n') = [] ∧ u.dropWhile (· != '\n') = u := by
    cases u with
    | nil => exact ⟨rfl, rfl⟩
    | cons c u =>
        have hhead := List.head?_dropWhile_not (· != '\n') t
        rw [show (t.dropWhile (· != '\n')).head? = some c from h] at hhead
        have hline : c = '\n' := by simpa using hhead
        rw [hline]
        exact ⟨rfl, rfl⟩
  rw [lineComment, List.takeWhile_append_of_pos hbody, List.dropWhile_append_of_pos hbody, hend.1, hend.2,
    List.append_nil]

/-- A character and the text behind it are no more a pair than before. -/
theorem pair_congr {c e : Char} {a r t u : Text} (ht : a ++ r = t) (h : r.head? = u.head?)
    (hpair : ∀ d v, c = e → t = d :: v → False) : ∀ d v, c = e → a ++ u = d :: v → False := by
  intro d v hc hv
  have hhead := head?_append_congr a h
  rw [ht, hv] at hhead
  obtain ⟨w, hw⟩ := List.head?_eq_some_iff.mp hhead.symm
  exact hpair d w hc hw

/-- A block comment does not depend on what follows it but for the next character. -/
theorem blockComment_congr {t u : Text} (h : (blockComment t).2.head? = u.head?) :
    blockComment ((blockComment t).1 ++ u) = ((blockComment t).1, u) := by
  fun_induction blockComment t with
  | case1 t => rfl
  | case2 c t hclose a b heq ih =>
      rw [heq] at ih
      have ht : a ++ b = t := by rw [← blockComment_append t, heq]
      show blockComment (c :: (a ++ u)) = _
      rw [blockComment, ih h]
      intro v hc hv
      have hhead := head?_append_congr a h
      rw [ht, hv] at hhead
      obtain ⟨w, hw⟩ := List.head?_eq_some_iff.mp hhead.symm
      exact hclose w hc hw
  | case3 =>
      rw [eq_nil_of_head? h]
      rfl

/-- The body of a string does not depend on what follows it but for the next character. -/
theorem stringBody_congr {q : Char} (hq : isQuote q = true) {t u : Text}
    (h : (stringBody q t).2.head? = u.head?) :
    stringBody q ((stringBody q t).1 ++ u) = ((stringBody q t).1, u) := by
  fun_induction stringBody q t with
  | case1 c t a b heq ih =>
      rw [heq] at ih
      show stringBody q ('\\' :: c :: (a ++ u)) = _
      rw [stringBody, ih h]
  | case2 c t hpair hstop =>
      obtain ⟨u, rfl⟩ := List.head?_eq_some_iff.mp h.symm
      show stringBody q (c :: u) = _
      rw [stringBody, if_pos hstop]
      rintro d v rfl -
      simp [(quote_ne hq).1.symm] at hstop
  | case3 c t hpair hgo a b heq ih =>
      rw [heq] at ih
      have ht : a ++ b = t := by rw [← stringBody_append q t, heq]
      show stringBody q (c :: (a ++ u)) = _
      rw [stringBody, if_neg hgo, ih h]
      exact pair_congr ht h hpair
  | case4 =>
      rw [eq_nil_of_head? h]
      rfl

/-- A template does not depend on what follows it but for the next character. -/
theorem templateBody_congr {t u : Text} (h : (templateBody t).2.head? = u.head?) :
    templateBody ((templateBody t).1 ++ u) = ((templateBody t).1, u) := by
  fun_induction templateBody t with
  | case1 c t a b heq ih =>
      rw [heq] at ih
      show templateBody ('\\' :: c :: (a ++ u)) = _
      rw [templateBody, ih h]
  | case2 c t hpair hmark =>
      rw [beq_iff_eq] at hmark
      rw [hmark]
      rfl
  | case3 c t hpair hmark a b heq ih =>
      rw [heq] at ih
      have ht : a ++ b = t := by rw [← templateBody_append t, heq]
      show templateBody (c :: (a ++ u)) = _
      rw [templateBody, if_neg hmark, ih h]
      exact pair_congr ht h hpair
  | case4 =>
      rw [eq_nil_of_head? h]
      rfl

/-- A slash that opens no comment. -/
theorem lexeme_slash {t : Text} (hline : t.head? ≠ some '/') (hblock : t.head? ≠ some '*') :
    lexeme ('/' :: t) = (['/'], t) := by
  unfold lexeme
  split
  · rename_i heq
    exact absurd heq (by simp)
  · rename_i heq
    exact absurd (congrArg List.head? (List.cons.inj heq).2) hline
  · rename_i heq
    exact absurd (congrArg List.head? (List.cons.inj heq).2) hblock
  · rename_i heq
    obtain ⟨rfl, rfl⟩ := List.cons.inj heq
    rfl

/-- What is left of a string does not depend on what follows it but for the next character. -/
theorem stringRest_congr {q : Char} (hq : isQuote q = true) {t u : Text}
    (h : (stringRest q t).2.head? = u.head?) :
    stringRest q ((stringRest q t).1 ++ u) = ((stringRest q t).1, u) := by
  have hbody := @stringBody_congr q hq t
  unfold stringRest at h ⊢
  split at h
  · rename_i body c rest heq
    rw [heq] at hbody
    split at h
    · rename_i hc
      have hcq := beq_iff_eq.mp hc
      simp only [if_pos hc]
      have hread : stringBody q (body ++ c :: u) = (body, c :: u) := hbody rfl
      rw [List.append_assoc, List.singleton_append, hread]
      exact if_pos hc
    · rename_i hc
      simp only [if_neg hc]
      obtain ⟨v, rfl⟩ := List.head?_eq_some_iff.mp h.symm
      have hread : stringBody q (body ++ c :: v) = (body, c :: v) := hbody rfl
      rw [hread]
      exact if_neg hc
  · rename_i body heq
    rw [heq] at hbody
    obtain rfl := eq_nil_of_head? h
    have hread : stringBody q (body ++ []) = (body, []) := hbody rfl
    simp only [hread]

/-- **The first lexeme** is the same in front of any text that starts with the same character. -/
theorem lexeme_congr {t u : Text} (h : (lexeme t).2.head? = u.head?) :
    lexeme ((lexeme t).1 ++ u) = ((lexeme t).1, u) := by
  cases t with
  | nil =>
      rw [eq_nil_of_head? h]
      rfl
  | cons c t =>
      by_cases hc : c = '/'
      · subst hc
        by_cases hline : t.head? = some '/'
        · obtain ⟨t, rfl⟩ := List.head?_eq_some_iff.mp hline
          show lexeme ('/' :: '/' :: ((lineComment t).1 ++ u)) = _
          rw [lexeme, lineComment_congr h]
          rfl
        by_cases hblock : t.head? = some '*'
        · obtain ⟨t, rfl⟩ := List.head?_eq_some_iff.mp hblock
          show lexeme ('/' :: '*' :: ((blockComment t).1 ++ u)) = _
          rw [lexeme, blockComment_congr h]
          rfl
        rw [lexeme_slash hline hblock] at h ⊢
        exact lexeme_slash (h ▸ hline) (h ▸ hblock)
      · rw [lexeme_of_ne_slash hc] at h ⊢
        split at h
        · rename_i hq
          simp only [if_pos hq, List.cons_append]
          rw [lexeme_of_ne_slash hc, if_pos hq, stringRest_congr hq h]
        rename_i hq
        split at h
        · rename_i ht
          simp only [if_neg hq, if_pos ht, List.cons_append]
          rw [lexeme_of_ne_slash hc, if_neg hq, if_pos ht, templateBody_congr h]
        rename_i ht
        split at h
        · rename_i hi
          simp only [if_neg hq, if_neg ht, if_pos hi, List.cons_append]
          rw [lexeme_of_ne_slash hc, if_neg hq, if_neg ht, if_pos hi, word_congr h]
        · rename_i hi
          simp only [if_neg hq, if_neg ht, if_neg hi, List.cons_append, List.nil_append]
          rw [lexeme_of_ne_slash hc, if_neg hq, if_neg ht, if_neg hi]

/-- A lexeme takes at least one character. -/
theorem lexeme_ne_nil {t : Text} (h : t ≠ []) : (lexeme t).1 ≠ [] := by
  intro hnil
  have hlt := lexeme_rest_lt h
  have happend := congrArg List.length (lexeme_append t)
  rw [hnil, List.nil_append] at happend
  omega

/-! ## Trivia are whole lexemes -/

/-- A blank or a comment stands in front of the text. -/
def startsTrivia : Text → Bool
  | [] => false
  | c :: t => Text.isAsciiBlank c || (c == '/' && (t.head? == some '/' || t.head? == some '*'))

/-- Two characters tell. -/
theorem startsTrivia_congr (c : Char) {t u : Text} (h : t.head? = u.head?) :
    startsTrivia (c :: t) = startsTrivia (c :: u) := by
  rw [startsTrivia, startsTrivia, h]

/-- In a line comment, passing over goes on at its end. -/
theorem triviaFrom_line (t : Text) :
    triviaFrom .line t
      = ((lineComment t).1 ++ (trivia (lineComment t).2).1, (trivia (lineComment t).2).2) := by
  induction t with
  | nil => rfl
  | cons c t ih =>
      by_cases hc : c = '\n'
      · subst hc
        rfl
      · have hcut : lineComment (c :: t) = (c :: (lineComment t).1, (lineComment t).2) := by
          simp [lineComment, hc]
        rw [triviaFrom, ih, hcut]
        · rfl
        · exact hc

/-- In a block comment, passing over goes on at its end. -/
theorem triviaFrom_block (t : Text) :
    triviaFrom .block t
      = ((blockComment t).1 ++ (trivia (blockComment t).2).1, (trivia (blockComment t).2).2) := by
  fun_induction blockComment t with
  | case1 t => rfl
  | case2 c t hclose a b heq ih =>
      rw [heq] at ih
      rw [triviaFrom, ih]
      · rfl
      · exact hclose
  | case3 => rfl

/-- Blanks are marks, so each is a lexeme. -/
theorem isMark_of_isAsciiBlank {c : Char} (h : Text.isAsciiBlank c = true) : isMark c = true := by
  simp only [Text.isAsciiBlank, Bool.or_eq_true, beq_iff_eq] at h
  rcases h with (((rfl | rfl) | rfl) | rfl) | rfl <;> decide

theorem lexeme_blank {c : Char} (h : Text.isAsciiBlank c = true) (t : Text) :
    lexeme (c :: t) = ([c], t) :=
  lexeme_mark (isMark_of_isAsciiBlank h)

/-- Trivia are read lexeme by lexeme. -/
theorem trivia_eq (t : Text) :
    trivia t = if startsTrivia t
      then ((lexeme t).1 ++ (trivia (lexeme t).2).1, (trivia (lexeme t).2).2) else ([], t) := by
  cases t with
  | nil => rfl
  | cons c t =>
      by_cases hb : Text.isAsciiBlank c = true
      · rw [if_pos (by simp [startsTrivia, hb]), lexeme_blank hb, trivia_blank hb]
        rfl
      by_cases hs : c = '/'
      · subst hs
        by_cases hline : t.head? = some '/'
        · obtain ⟨t, rfl⟩ := List.head?_eq_some_iff.mp hline
          rw [if_pos (by simp [startsTrivia]), lexeme]
          exact congrArg (fun r : Text × Text => ('/' :: '/' :: r.1, r.2)) (triviaFrom_line t)
        by_cases hblock : t.head? = some '*'
        · obtain ⟨t, rfl⟩ := List.head?_eq_some_iff.mp hblock
          rw [if_pos (by simp [startsTrivia]), lexeme]
          exact congrArg (fun r : Text × Text => ('/' :: '*' :: r.1, r.2)) (triviaFrom_block t)
        rw [if_neg (by simp [startsTrivia, hb, hline, hblock]), trivia, triviaFrom, if_neg hb]
        · exact fun u _ ht => hline (ht ▸ rfl)
        · exact fun u _ ht => hblock (ht ▸ rfl)
      · rw [if_neg (by simp [startsTrivia, hb, hs]), trivia_of_token (by simpa using hb) hs]

/-! ## Whole lexemes of code -/

/-- Reading whole lexemes that are no strings takes the text `a` from `t` and leaves `r`. -/
inductive Lexed : Text → Text → Text → Prop where
  | done (t : Text) : Lexed t [] t
  | more {t a r : Text} (hne : t ≠ []) (hq : ∀ c ∈ t.head?, isQuote c = false)
      (h : Lexed (lexeme t).2 a r) : Lexed t ((lexeme t).1 ++ a) r

/-- Whole lexemes behind whole lexemes are whole lexemes. -/
theorem Lexed.append {t a b r s : Text} (h : Lexed t a r) (h' : Lexed r b s) : Lexed t (a ++ b) s := by
  induction h with
  | done t => exact h'
  | more hne hq _ ih =>
      rw [List.append_assoc]
      exact .more hne hq (ih h')

/-- One lexeme that is no string is taken whole. -/
theorem Lexed.single {t : Text} (hne : t ≠ []) (hq : ∀ c ∈ t.head?, isQuote c = false) :
    Lexed t (lexeme t).1 (lexeme t).2 := by
  have h := Lexed.more hne hq (.done _)
  rwa [List.append_nil] at h

/-- No character of an identifier is a quote. -/
theorem isQuote_of_isIdent {c : Char} (h : isIdent c = true) : isQuote c = false := by
  simp [isQuote, ne_of_isIdent h (d := '\'') (by decide), ne_of_isIdent h (d := '"') (by decide)]

theorem isQuote_of_isMark {c : Char} (h : isMark c = true) : isQuote c = false := by
  simp only [isMark, Bool.and_eq_true, Bool.not_eq_true'] at h
  exact h.1.1.1

theorem lexed_mark {c : Char} (h : isMark c = true) (t : Text) : Lexed (c :: t) [c] t := by
  have hone := Lexed.single (t := c :: t) (by simp) fun d hd => by
    obtain rfl := Option.some.inj hd
    exact isQuote_of_isMark h
  rwa [lexeme_mark h] at hone

/-- A word is taken in whole lexemes. -/
theorem lexed_word (t : Text) : Lexed t (word t).1 (word t).2 := by
  cases t with
  | nil => exact .done []
  | cons c t =>
      by_cases hc : isIdent c = true
      · have hone := Lexed.single (t := c :: t) (by simp) fun d hd => by
          obtain rfl := Option.some.inj hd
          exact isQuote_of_isIdent hc
        rw [lexeme_of_isIdent hc] at hone
        rw [word, List.takeWhile_cons_of_pos hc, List.dropWhile_cons_of_pos hc]
        exact hone
      · rw [word_of_breaks (breaks_cons.mpr (by simpa using hc))]
        exact .done _

/-- What can be passed over does not start with a quote. -/
theorem isQuote_of_startsTrivia {t : Text} (h : startsTrivia t = true) :
    t ≠ [] ∧ ∀ c ∈ t.head?, isQuote c = false := by
  cases t with
  | nil => exact absurd h Bool.false_ne_true
  | cons c t =>
      refine ⟨List.cons_ne_nil c t, fun d hd => ?_⟩
      obtain rfl := Option.some.inj hd
      rw [startsTrivia, Bool.or_eq_true, Bool.and_eq_true, beq_iff_eq] at h
      rcases h with hb | ⟨rfl, -⟩
      · exact isQuote_of_isMark (isMark_of_isAsciiBlank hb)
      · decide

/-- Blanks and comments are taken in whole lexemes. -/
theorem lexed_trivia (t : Text) : Lexed t (trivia t).1 (trivia t).2 := by
  induction hn : t.length using Nat.strongRecOn generalizing t with
  | ind n ih =>
      rw [trivia_eq]
      split
      · rename_i h
        obtain ⟨hne, hq⟩ := isQuote_of_startsTrivia h
        exact .more hne hq (ih _ (hn ▸ lexeme_rest_lt hne) _ rfl)
      · exact .done t

/-! ## Readers of code -/

/-- The modifier is taken in whole lexemes. -/
theorem lexed_typeModifier (t : Text) : Lexed t ((typeModifier t).1.getD []) (typeModifier t).2 := by
  unfold typeModifier
  split
  · dsimp only
    split
    · exact .done t
    · exact (lexed_word t).append (lexed_trivia _)
  · exact .done t

/-- The end of a statement is taken in whole lexemes. -/
theorem lexed_statementEnd (t : Text) : Lexed t (statementEnd t).1 (statementEnd t).2 := by
  have hmark : Lexed t (semicolon t).1 (semicolon t).2 := by
    unfold semicolon
    split
    · exact lexed_mark (by decide) _
    · exact .done _
  have hending (u : Text) : Lexed u (lineBreak u).1 (lineBreak u).2 := by
    unfold lineBreak
    split
    · exact (lexed_mark (c := '\r') (by decide) _).append (lexed_mark (c := '\n') (by decide) _)
    · exact lexed_mark (by decide) _
    · exact .done _
  exact hmark.append (hending _)

/-- Trivia and a mark behind them. -/
theorem lexed_trivia_mark {t rest : Text} {c : Char} (h : (trivia t).2 = c :: rest)
    (hc : isMark c = true) : Lexed t ((trivia t).1 ++ [c]) rest := by
  have hl := lexed_trivia t
  rw [h] at hl
  exact hl.append (lexed_mark hc rest)

/-- Trivia and a word behind them. -/
theorem lexed_trivia_word {t rest : Text} {c : Char} (h : (trivia t).2 = c :: rest)
    (hc : isIdent c = true) : Lexed t ((trivia t).1 ++ c :: (word rest).1) (word rest).2 := by
  have hl := lexed_trivia t
  have hw := lexed_word (c :: rest)
  rw [word, List.takeWhile_cons_of_pos hc, List.dropWhile_cons_of_pos hc] at hw
  rw [h] at hl
  exact hl.append hw

/-- **A clause is taken in whole lexemes**, with its link to the source. -/
theorem lexed_readClause? {depth : Nat} {seen : Bool} {t : Text} {r : ClauseRead}
    (h : readClause? depth seen t = some r) : Lexed t (r.clause ++ r.link) r.rest := by
  fun_induction readClause? depth seen t generalizing r
  case case1 => exact absurd h (by simp)
  case case2 t c rest heq blanks hc ih =>
      obtain ⟨r', hr, rfl⟩ := Option.map_eq_some_iff.mp h
      obtain rfl := beq_iff_eq.mp hc
      rw [ClauseRead.clause_link_hold, ClauseRead.rest_hold]
      exact (lexed_trivia_mark heq (by decide)).append (ih hr)
  case case3 => exact absurd h (by simp)
  case case4 t c rest heq blanks _ hc d ih =>
      obtain ⟨r', hr, rfl⟩ := Option.map_eq_some_iff.mp h
      obtain rfl := beq_iff_eq.mp hc
      rw [ClauseRead.clause_link_join]
      exact (lexed_trivia_mark heq (by decide)).append (ih hr)
  case case5 t c rest heq blanks _ _ hc ih =>
      obtain ⟨r', hr, rfl⟩ := Option.map_eq_some_iff.mp h
      have hmark : isMark c = true := by
        rw [Bool.or_eq_true, beq_iff_eq, beq_iff_eq] at hc
        rcases hc with rfl | rfl <;> decide
      rw [ClauseRead.clause_link_join]
      exact (lexed_trivia_mark heq hmark).append (ih hr)
  case case6 t c rest heq blanks _ _ _ hc name hn =>
      obtain rfl := Option.some.inj h
      exact lexed_trivia_word heq hc
  case case7 t c rest heq blanks _ _ _ hc name hn ih =>
      obtain ⟨r', hr, rfl⟩ := Option.map_eq_some_iff.mp h
      rw [ClauseRead.clause_link_join]
      exact (lexed_trivia_word heq hc).append (ih hr)
  case case8 => exact absurd h (by simp)

/-! ## Sites are code around a string -/

/-- The text is a body between two such quotes, whatever follows. -/
def IsBody (q : Char) (body : Text) : Prop := ∀ t, stringBody q (body ++ q :: t) = (body, q :: t)

/-- What was read up to a quote once is read up to it whatever follows. -/
theorem isBody_of_stringBody {q : Char} (hq : isQuote q = true) {body t rest : Text}
    (h : stringBody q t = (body, q :: rest)) : IsBody q body := by
  intro u
  have hread := stringBody_congr hq (t := t) (u := q :: u) (by rw [h]; rfl)
  rwa [h] at hread

/-- Without quotes, backslashes and line feeds a text is a body between any quotes. -/
theorem isBody_of_bare {q : Char} (hq : isQuote q = true) {body : Text}
    (h : ∀ c ∈ body, c ≠ '\'' ∧ c ≠ '"' ∧ c ≠ '\\' ∧ c ≠ '\n') : IsBody q body := by
  intro t
  simp only [isQuote, Bool.or_eq_true, beq_iff_eq] at hq
  rcases hq with rfl | rfl
  · exact stringBody_plain (q := .single) fun c hc => ⟨(h c hc).1, (h c hc).2.2⟩
  · exact stringBody_plain (q := .double) fun c hc => ⟨(h c hc).2.1, (h c hc).2.2⟩

/-- A body between its quotes is read as a string. -/
theorem quoted?_of_isBody {q : Char} (hq : isQuote q = true) {body : Text} (h : IsBody q body)
    (t : Text) : quoted? (q :: (body ++ q :: t)) = some (q, body, t) := by
  simp [quoted?, hq, h t]

/-- A string that is read is a body between its quotes. -/
theorem isBody_of_quoted? {t body rest : Text} {q : Char} (h : quoted? t = some (q, body, rest)) :
    isQuote q = true ∧ IsBody q body ∧ t = q :: (body ++ q :: rest) := by
  have happend := quoted?_append h
  rw [List.cons_append] at happend
  subst happend
  unfold quoted? at h
  split at h
  · exact absurd h (by simp)
  rename_i c u heq
  obtain ⟨rfl, rfl⟩ := List.cons.inj heq
  split at h
  · rename_i hq
    split at h
    · rename_i b d r hread
      split at h
      · rename_i hd
        obtain rfl := beq_iff_eq.mp hd
        obtain ⟨rfl, rfl⟩ : b = body ∧ r = rest := by simpa using h
        exact ⟨hq, isBody_of_stringBody hq hread, rfl⟩
      · exact absurd h (by simp)
    · exact absurd h (by simp)
  · exact absurd h (by simp)

/-- Bodies end at the first quote. -/
theorem IsBody.eq {q : Char} {a b t u : Text} (ha : IsBody q a) (hb : IsBody q b)
    (h : a ++ q :: t = b ++ q :: u) : a = b := by
  have hread := ha t
  rw [h, hb u] at hread
  exact (congrArg Prod.fst hread).symm

/-- A site is a string with whole lexemes of code around it. -/
def LexedSite (t : Text) (s : Site) (rest : Text) : Prop :=
  ∃ (lead : Text) (q : Char) (tail after : Text), isQuote q = true ∧ IsBody q s.specifier ∧
    s.head ++ s.clause ++ s.link = lead ++ [q] ∧ s.tail = q :: tail ∧
    Lexed t lead (q :: (s.specifier ++ q :: after)) ∧ Lexed after tail rest

section

variable {front head t rest : Text} {s : Site} (hhead : Lexed front head t)

include hhead

/-- A static site is a string with whole lexemes around it. -/
theorem lexedSite_of_staticSite? {keyword : Keyword} (h : staticSite? keyword head t = some (s, rest)) :
    LexedSite front s rest := by
  obtain ⟨read, q, specifier, hread, hq, rfl⟩ := exists_of_staticSite? h
  obtain ⟨hquote, hbody, heq⟩ := isBody_of_quoted? hq
  have hlead := ((hhead.append (lexed_typeModifier t)).append (lexed_readClause? hread)).append
    (lexed_trivia read.rest)
  rw [heq] at hlead
  exact ⟨_, q, [], rest, hquote, hbody, by simp, rfl, hlead, .done _⟩

/-- A dynamic import is a string with whole lexemes around it. -/
theorem lexedSite_of_dynamicSite? (h : dynamicSite? head t = some (s, rest)) :
    LexedSite front s rest := by
  obtain ⟨q, specifier, after, hq, hclose, rfl⟩ := exists_of_dynamicSite? h
  obtain ⟨hquote, hbody, heq⟩ := isBody_of_quoted? hq
  have hlead := hhead.append (lexed_trivia t)
  rw [heq] at hlead
  exact ⟨_, q, _, after, hquote, hbody, by simp, rfl, hlead, lexed_trivia_mark hclose (by decide)⟩

/-- An import for its effects is a string with whole lexemes around it. -/
theorem lexedSite_of_sideEffectSite? (h : sideEffectSite? head t = some (s, rest)) :
    LexedSite front s rest := by
  obtain ⟨q, specifier, after, hq, rfl, rfl⟩ := exists_of_sideEffectSite? h
  obtain ⟨hquote, hbody, rfl⟩ := isBody_of_quoted? hq
  exact ⟨head, q, _, after, hquote, hbody, by simp, rfl, hhead, lexed_statementEnd after⟩

end

/-- The keyword in front of a site is a lexeme. -/
theorem lexed_keyword {t : Text} {k : Keyword} (h : keyword? (lexeme t).1 = some k) :
    Lexed t k.text (lexeme t).2 := by
  have htext := text_of_keyword? h
  have happend := lexeme_append t
  obtain ⟨c, w, hw⟩ : ∃ c w, k.text = c :: w := by cases k <;> exact ⟨_, _, rfl⟩
  rw [← htext, hw, List.cons_append] at happend
  rw [htext]
  refine .single (happend ▸ List.cons_ne_nil _ _) fun d hd => ?_
  have hfirst : t.head? = some c := happend ▸ rfl
  obtain rfl := Option.some.inj (hfirst.symm.trans hd)
  exact isQuote_of_isIdent (isIdent_of_mem_keyword (k := k) (by rw [hw]; simp))

/-- **A site that scanning reads** is a string with whole lexemes of code around it. -/
theorem lexedSite_of_siteAt? {property : Bool} {t rest : Text} {s : Site}
    (h : siteAt? property t = some (s, rest)) : LexedSite t s rest := by
  obtain ⟨-, k, hk, hsite⟩ := exists_of_siteAt? h
  have hkeyword := lexed_keyword hk
  generalize (lexeme t).2 = u at hsite hkeyword
  have hhead := hkeyword.append (lexed_trivia u)
  cases siteRead_of_siteAfter? hsite with
  | dynamic hnext hread =>
      refine lexedSite_of_dynamicSite? ?_ hread
      rw [List.append_assoc]
      exact hkeyword.append (lexed_trivia_mark hnext (by decide))
  | sideEffect _ _ hread => exact lexedSite_of_sideEffectSite? hhead hread
  | imported _ _ hread => exact lexedSite_of_staticSite? hhead hread
  | reexported _ hread => exact lexedSite_of_staticSite? hhead hread

end Typings.Import
