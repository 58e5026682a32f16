import Typings.Proofs.Import.Grammar

/-!
# `Forward` — reading what was written

The reading functions cut a text; here they are run on texts that were put together from the parts of
the grammar, and give the parts back.

* `Breaks`: no identifier runs into the text, so a word in front of it ends where it was meant to.
* `word_append_of_breaks`, `quoted?_literal`, `trivia_blank`: the small readers.
* `lexeme_word`, `lexeme_mark`, `lexeme_literal`, `lexeme_lineComment`, `lexeme_blockComment`: the
  first lexeme, part by part.
* `scanFrom_word`, `scanFrom_mark`, `scanFrom_literal`, …: what scanning does with each.

Each lemma reads one part and leaves whatever follows it, so a text of many parts is read by applying
them in a row.
-/

namespace Typings.Import

/-! ## Where a word ends -/

/-- No identifier runs into the text. -/
def Breaks (t : Text) : Prop := ∀ c ∈ t.head?, isIdent c = false

/-- A text breaks off a word in front of it just if its first character cannot go on with one. -/
@[simp] theorem breaks_cons {c : Char} {t : Text} : Breaks (c :: t) ↔ isIdent c = false := by
  simp [Breaks]

/-- A character of an identifier is none that cannot stand in one. -/
theorem ne_of_isIdent {c d : Char} (hc : isIdent c = true) (hd : isIdent d = false) : c ≠ d := by
  rintro rfl
  rw [hc] at hd
  exact absurd hd (by decide)

/-- A word is read up to where no identifier runs on. -/
theorem word_append_of_breaks {w t : Text} (hw : ∀ c ∈ w, isIdent c = true) (ht : Breaks t) :
    word (w ++ t) = (w, t) := by
  have hd : t.dropWhile isIdent = t := by
    cases t with
    | nil => rfl
    | cons c t => rw [List.dropWhile_cons_of_neg (by simp [breaks_cons.mp ht])]
  have hn : t.takeWhile isIdent = [] := by
    cases t with
    | nil => rfl
    | cons c t => rw [List.takeWhile_cons_of_neg (by simp [breaks_cons.mp ht])]
  rw [word, List.takeWhile_append_of_pos hw, List.dropWhile_append_of_pos hw, hd, hn,
    List.append_nil]

/-- Where no identifier starts, no word is read. -/
theorem word_of_breaks {t : Text} (ht : Breaks t) : word t = ([], t) :=
  word_append_of_breaks (w := []) (by simp) ht

/-! ## Trivia -/

/-- In front of a token there is nothing to pass over. -/
theorem trivia_of_token {c : Char} {t : Text} (hb : Text.isAsciiBlank c = false) (hs : c ≠ '/') :
    trivia (c :: t) = ([], c :: t) := by
  unfold trivia
  rw [triviaFrom]
  · rw [hb]; rfl
  · intro _ h _; exact hs h
  · intro _ h _; exact hs h

/-- A blank is passed over, with what can be passed over behind it. -/
theorem trivia_blank {c : Char} {t : Text} (hb : Text.isAsciiBlank c = true) :
    trivia (c :: t) = (c :: (trivia t).1, (trivia t).2) := by
  have hs : c ≠ '/' := by rintro rfl; exact absurd hb (by decide)
  unfold trivia
  rw [triviaFrom]
  · rw [hb]; rfl
  · intro _ h _; exact hs h
  · intro _ h _; exact hs h

/-- No blank can stand in an identifier. -/
theorem isAsciiBlank_of_isIdent {c : Char} (h : isIdent c = true) : Text.isAsciiBlank c = false := by
  have h1 := ne_of_isIdent h (d := ' ') (by decide)
  have h2 := ne_of_isIdent h (d := '\t') (by decide)
  have h3 := ne_of_isIdent h (d := '\n') (by decide)
  have h4 := ne_of_isIdent h (d := '\r') (by decide)
  have h5 := ne_of_isIdent h (d := '\x0c') (by decide)
  simp [Text.isAsciiBlank, h1, h2, h3, h4, h5]

/-- In front of an identifier there is nothing to pass over. -/
theorem trivia_of_isIdent {c : Char} {t : Text} (h : isIdent c = true) :
    trivia (c :: t) = ([], c :: t) :=
  trivia_of_token (isAsciiBlank_of_isIdent h) (ne_of_isIdent h (by decide))

/-! ## Quoted strings -/

/-- A body without escapes is read up to its closing quote. -/
theorem stringBody_plain {q : Quote} {body t : Text} (h : ∀ c ∈ body, q.admits c) :
    stringBody q.char (body ++ q.char :: t) = (body, q.char :: t) := by
  have hq : q.char ≠ '\\' := by cases q <;> decide
  induction body with
  | nil =>
      rw [List.nil_append, stringBody]
      · simp
      · intro _ _ h _; exact hq h
  | cons c body ih =>
      obtain ⟨hc, hs, hn⟩ := h c (by simp)
      rw [List.cons_append, stringBody]
      · simp [hc, hn, ih fun d hd => h d (by simp [hd])]
      · intro _ _ h _; exact hs h

theorem isQuote_char (q : Quote) : isQuote q.char = true := by cases q <;> rfl

/-- A literal is read with its quote and its body, whatever follows it. -/
theorem quoted?_literal (l : Literal) (t : Text) :
    quoted? (l.text ++ t) = some (l.quote.char, l.body, t) := by
  have hb := stringBody_plain (t := t) l.plain
  simp only [Literal.text, List.cons_append, List.append_assoc, List.nil_append, quoted?,
    isQuote_char, if_true, hb, beq_self_eq_true]

/-- No quote can stand in an identifier. -/
theorem isIdent_quote (q : Quote) : isIdent q.char = false := by cases q <;> decide

/-- In front of a literal there is nothing to pass over. -/
theorem trivia_literal (l : Literal) (t : Text) : trivia (l.text ++ t) = ([], l.text ++ t) := by
  refine trivia_of_token ?_ ?_
  · cases l.quote <;> decide
  · cases l.quote <;> decide

/-! ## The first lexeme -/

/-- Without a slash in front, the first character alone decides what the first lexeme is. -/
theorem lexeme_of_ne_slash {c : Char} {t : Text} (h : c ≠ '/') :
    lexeme (c :: t) =
      if isQuote c then (c :: (stringRest c t).1, (stringRest c t).2)
      else if c == templateMark then (c :: (templateBody t).1, (templateBody t).2)
      else if isIdent c then (c :: (word t).1, (word t).2)
      else ([c], t) := by
  rw [lexeme]
  · intro _ hc _; exact h hc
  · intro _ hc _; exact h hc

/-- A word is a lexeme where no identifier runs on. -/
theorem lexeme_word {w t : Text} (hne : w ≠ []) (hw : ∀ c ∈ w, isIdent c = true) (ht : Breaks t) :
    lexeme (w ++ t) = (w, t) := by
  obtain ⟨c, w, rfl⟩ := List.exists_cons_of_ne_nil hne
  have hc : isIdent c = true := hw c (by simp)
  have hq : isQuote c = false := by
    simp [isQuote, ne_of_isIdent hc (d := '\'') (by decide), ne_of_isIdent hc (d := '"') (by decide)]
  have hm : (c == templateMark) = false := beq_eq_false_iff_ne.mpr (ne_of_isIdent hc (by decide))
  rw [List.cons_append, lexeme_of_ne_slash (ne_of_isIdent hc (by decide)), hq, hm, hc,
    word_append_of_breaks (fun d hd => hw d (by simp [hd])) ht]
  rfl

/-- A mark is a lexeme whatever follows it. -/
theorem lexeme_mark {c : Char} {t : Text} (h : isMark c = true) : lexeme (c :: t) = ([c], t) := by
  simp only [isMark, Bool.and_eq_true, Bool.not_eq_true', bne_iff_ne, ne_eq] at h
  obtain ⟨⟨⟨hq, hm⟩, hi⟩, hs⟩ := h
  rw [lexeme_of_ne_slash hs, hq, hi, beq_eq_false_iff_ne.mpr hm]
  rfl

/-- A literal is a lexeme whatever follows it. -/
theorem lexeme_literal (l : Literal) (t : Text) : lexeme (l.text ++ t) = (l.text, t) := by
  have hs : l.quote.char ≠ '/' := by cases l.quote <;> decide
  have hb := stringBody_plain (t := t) l.plain
  have hr : stringRest l.quote.char (l.body ++ l.quote.char :: t)
      = (l.body ++ [l.quote.char], t) := by
    simp [stringRest, hb]
  rw [Literal.text, List.cons_append, List.cons_append, List.append_assoc, List.singleton_append,
    lexeme_of_ne_slash hs, isQuote_char, hr]
  rfl

/-- A line comment is a lexeme up to its line feed, which stays. -/
theorem lexeme_lineComment {body t : Text} (h : '\n' ∉ body) :
    lexeme ('/' :: '/' :: body ++ '\n' :: t) = ('/' :: '/' :: body, '\n' :: t) := by
  have hb : ∀ c ∈ body, (c != '\n') = true := by
    intro c hc
    rw [bne_iff_ne]
    rintro rfl
    exact h hc
  rw [List.cons_append, List.cons_append, lexeme, lineComment, List.takeWhile_append_of_pos hb,
    List.dropWhile_append_of_pos hb]
  simp

/-- The body of a block comment is read up to the first place where it is closed. -/
theorem blockComment_body {body t : Text} (h : ¬ ['*', '/'] <:+: body) :
    blockComment (body ++ '*' :: '/' :: t) = (body ++ ['*', '/'], t) := by
  induction body with
  | nil => rfl
  | cons c body ih =>
      have hrest : ¬ ['*', '/'] <:+: body := fun hi => h (hi.trans (List.suffix_cons c body).isInfix)
      rw [List.cons_append, blockComment]
      · rw [ih hrest]
        rfl
      · -- The closing mark does not start here: its slash would belong to the body or be its own star.
        intro u hc hu
        cases body with
        | nil => simp at hu
        | cons d body =>
            rw [List.cons_append, List.cons.injEq] at hu
            obtain ⟨rfl, -⟩ := hu
            subst hc
            exact h ⟨[], body, rfl⟩

/-- A block comment is a lexeme with its end. -/
theorem lexeme_blockComment {body t : Text} (h : ¬ ['*', '/'] <:+: body) :
    lexeme ('/' :: '*' :: body ++ '*' :: '/' :: t) = ('/' :: '*' :: body ++ ['*', '/'], t) := by
  rw [List.cons_append, List.cons_append, lexeme, blockComment_body h]
  rfl

/-! ## Segments in front of segments -/

namespace Segments

theorem prepend_nil (s : Segments) : s.prepend [] = s := by
  obtain ⟨sites, rest⟩ := s
  cases sites with
  | nil => rfl
  | cons p sites => rfl

/-- Texts that are passed over one after the other are passed over together. -/
@[simp] theorem prepend_prepend (a b : Text) (s : Segments) :
    (s.prepend b).prepend a = s.prepend (a ++ b) := by
  obtain ⟨sites, rest⟩ := s
  cases sites with
  | nil => simp [prepend]
  | cons p sites => simp [prepend]

end Segments

/-! ## Scanning, lexeme by lexeme -/

theorem scanFrom_nil : scanFrom false [] = ⟨[], []⟩ := by rw [scanFrom, dif_pos rfl]

/-- Where no site starts, scanning passes over one lexeme and remembers whether it was a dot. -/
theorem scanFrom_of_none {property : Bool} {t : Text} (hne : t ≠ [])
    (h : siteAt? property t = none) :
    scanFrom property t
      = (scanFrom ((lexeme t).1 == ".") (lexeme t).2).prepend (lexeme t).1 := by
  rw [scanFrom, dif_neg hne]
  split
  · rename_i heq
    rw [h] at heq
    exact absurd heq (by simp)
  · rfl

/-- Where a site starts, scanning takes it and goes on behind it. -/
theorem scanFrom_of_some {t rest : Text} {s : Site} (hne : t ≠ [])
    (h : siteAt? false t = some (s, rest)) :
    scanFrom false t = (scanFrom false rest).consSite s := by
  rw [scanFrom, dif_neg hne]
  split
  · rename_i heq
    rw [h] at heq
    obtain ⟨rfl, rfl⟩ := Prod.mk.inj (Option.some.inj heq)
    rfl
  · rename_i heq
    rw [h] at heq
    exact absurd heq (by simp)

/-- A lexeme that is no keyword goes in front of what follows it. -/
theorem scanFrom_of_lexeme (property : Bool) {a t : Text} (hne : a ≠ [])
    (hl : lexeme (a ++ t) = (a, t)) (hk : keyword? a = none) :
    scanFrom property (a ++ t) = (scanFrom (a == ".") t).prepend a := by
  have hs : siteAt? property (a ++ t) = none := by
    unfold siteAt?
    split
    · rfl
    · rw [hl, hk]
      rfl
  rw [scanFrom_of_none (by simp [hne]) hs, hl]

/-- Only the two keywords start a site. -/
theorem keyword?_eq_none {a : Text} (hi : a ≠ "import") (he : a ≠ "export") : keyword? a = none := by
  unfold keyword?
  rw [if_neg (by rw [beq_iff_eq]; exact hi), if_neg (by rw [beq_iff_eq]; exact he)]

/-- A word that is no keyword is passed over. -/
theorem scanFrom_word {property : Bool} (w : Word) {t : Text} (ht : Breaks t) :
    scanFrom property (w.text ++ t) = (scanFrom false t).prepend w.text := by
  have hd : (w.text == ".") = false := by
    rw [beq_eq_false_iff_ne]
    intro h
    have hdot : '.' ∈ w.text := by rw [h]; decide
    exact absurd (w.ident '.' hdot) (by decide)
  rw [scanFrom_of_lexeme _ w.nonempty (lexeme_word w.nonempty w.ident ht)
    (keyword?_eq_none w.not_import w.not_export), hd]

/-- A text with a character that stands in no identifier is no keyword. -/
theorem keyword?_eq_none_of_mem {a : Text} {c : Char} (hm : c ∈ a) (hi : isIdent c = false) :
    keyword? a = none := by
  refine keyword?_eq_none ?_ ?_
  · rintro rfl
    exact absurd (show isIdent c = true from List.all_eq_true.mp (by decide) c hm) (by simp [hi])
  · rintro rfl
    exact absurd (show isIdent c = true from List.all_eq_true.mp (by decide) c hm) (by simp [hi])

/-- A mark is passed over; a dot makes what follows a property. -/
theorem scanFrom_mark {property : Bool} {c : Char} {t : Text} (h : isMark c = true) :
    scanFrom property (c :: t) = (scanFrom (c == '.') t).prepend [c] := by
  have hi : isIdent c = false := by
    simp only [isMark, Bool.and_eq_true, Bool.not_eq_true'] at h
    exact h.1.2
  have hd : ([c] == (".".toList)) = (c == '.') := by
    rw [Bool.eq_iff_iff]
    simp
  have hs := scanFrom_of_lexeme property (a := [c]) (t := t) (by simp)
    (lexeme_mark h) (keyword?_eq_none_of_mem (c := c) (by simp) hi)
  rw [hd] at hs
  exact hs

/-- A literal is passed over, so nothing in a string is taken for a site. -/
theorem scanFrom_literal {property : Bool} (l : Literal) (t : Text) :
    scanFrom property (l.text ++ t) = (scanFrom false t).prepend l.text := by
  have hd : (l.text == ".") = false := by
    rw [beq_eq_false_iff_ne, Literal.text]
    cases l.quote <;> simp [Quote.char]
  rw [scanFrom_of_lexeme _ (by simp [Literal.text]) (lexeme_literal l t)
    (keyword?_eq_none_of_mem (c := l.quote.char) (by simp [Literal.text]) (isIdent_quote _)), hd]

/-- A comment is passed over, and what follows it is no property. -/
theorem scanFrom_comment (property : Bool) {c : Char} {a t : Text}
    (hl : lexeme ('/' :: c :: a ++ t) = ('/' :: c :: a, t)) :
    scanFrom property ('/' :: c :: a ++ t) = (scanFrom false t).prepend ('/' :: c :: a) := by
  have hd : (('/' :: c :: a) == (".".toList)) = false := by simp
  rw [scanFrom_of_lexeme _ (by simp) hl (keyword?_eq_none_of_mem (c := '/') (by simp) (by decide)), hd]

/-- A keyword is a lexeme where no identifier runs on. -/
theorem lexeme_keyword (k : Keyword) {t : Text} (ht : Breaks t) :
    lexeme (k.text ++ t) = (k.text, t) := by
  refine lexeme_word ?_ ?_ ht
  · cases k <;> decide
  · cases k <;> exact List.all_eq_true.mp (by decide)

/-- At a keyword in code the site is the one that its own reader finds behind it. -/
theorem siteAt?_keyword (k : Keyword) {t : Text} (ht : Breaks t) :
    siteAt? false (k.text ++ t) = siteAfter? k t := by
  have hk : keyword? k.text = some k := by cases k <;> decide
  rw [siteAt?, lexeme_keyword k ht, hk]
  rfl

/-- A keyword that starts no site is a word like any other. -/
theorem scanFrom_keyword_of_none (k : Keyword) {t : Text} (ht : Breaks t)
    (h : siteAfter? k t = none) :
    scanFrom false (k.text ++ t) = (scanFrom false t).prepend k.text := by
  have hne : k.text ≠ [] := by cases k <;> decide
  have hd : (k.text == ".") = false := by cases k <;> decide
  rw [scanFrom_of_none (by simp [hne]) ((siteAt?_keyword k ht).trans h), lexeme_keyword k ht, hd]

/-- A keyword with a site behind it becomes that site. -/
theorem scanFrom_keyword_of_some (k : Keyword) {t rest : Text} {s : Site} (ht : Breaks t)
    (h : siteAfter? k t = some (s, rest)) :
    scanFrom false (k.text ++ t) = (scanFrom false rest).consSite s := by
  have hne : k.text ≠ [] := by cases k <;> decide
  exact scanFrom_of_some (by simp [hne]) ((siteAt?_keyword k ht).trans h)

end Typings.Import
