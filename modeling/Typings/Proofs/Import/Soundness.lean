import Typings.Proofs.Import.Automaton
import Typings.Proofs.Import.Completeness

/-!
# `Soundness` — every site is one for the automaton

Scanning tries to read a site at every keyword, gives up in the middle of one, and goes on behind the
keyword or behind the site.  Whatever the text is, the automaton is ready for what is scanned next
(`InStep`), so a site starts with a keyword in code and names its module by a terminated string
(`sound_located`).

* `Parts`: behind a text, a word starts anew and is no property.
* `SiteInStep`: what the automaton makes of a site; `siteInStep_of_siteAfter?`.
* `WordAt`, `StringAt`: a word in code and a terminated string, by their bytes; `Located.Sound`.
* `sound_located`: the sites of a text.
-/

namespace Typings.Import

/-! ## Where a word starts -/

/-- A word behind the text starts anew, and no dot stands directly before it. -/
def Parts (a b : Text) : Prop :=
  ∀ d ∈ b.head?, isIdent d = true → ∀ c ∈ a.getLast?, isIdent c = false ∧ c ≠ '.'

/-- Whether a word starts anew depends on the last character before it only. -/
theorem Parts.append {a b : Text} (h : Parts a b) (hne : a ≠ []) (front : Text) :
    Parts (front ++ a) b := by
  intro d hd hi c hc
  rw [List.getLast?_append, List.getLast?_eq_some_getLast hne, Option.some_or] at hc
  rw [← List.getLast?_eq_some_getLast hne] at hc
  exact h d hd hi c hc

/-- Where no identifier starts, no word can run on. -/
theorem parts_of_breaks {a b : Text} (h : Breaks b) : Parts a b := by
  intro d hd hi
  rw [h d hd] at hi
  exact absurd hi Bool.false_ne_true

/-- Behind a character that is no dot and in no identifier, a word starts anew. -/
theorem parts_of_last {a b : Text} {c : Char} (hi : isIdent c = false) (hc : c ≠ '.') :
    Parts (a ++ [c]) b := by
  intro _ _ _ d hd
  rw [List.getLast?_concat] at hd
  obtain rfl := Option.some.inj hd
  exact ⟨hi, hc⟩

theorem parts_lineComment (a t : Text) : Parts a (lineComment t).2 := by
  refine parts_of_breaks fun d hd => ?_
  have hhead := List.head?_dropWhile_not (· != '\n') t
  rw [show (t.dropWhile (· != '\n')).head? = some d from hd] at hhead
  have hline : d = '\n' := by simpa using hhead
  rw [hline]
  decide

/-- A block comment that is closed ends with a slash. -/
theorem blockComment_last (t : Text) :
    (blockComment t).2 = [] ∨ ∃ a, (blockComment t).1 = a ++ ['/'] := by
  fun_induction blockComment t with
  | case1 t => exact .inr ⟨['*'], rfl⟩
  | case2 c t _ a b heq ih =>
      rw [heq] at ih
      rcases ih with hnil | ⟨u, hu⟩
      · exact .inl hnil
      · exact .inr ⟨c :: u, congrArg (c :: ·) hu⟩
  | case3 => exact .inl rfl

/-- A template that is closed ends with its mark. -/
theorem templateBody_last (t : Text) :
    (templateBody t).2 = [] ∨ ∃ a, (templateBody t).1 = a ++ [templateMark] := by
  fun_induction templateBody t with
  | case1 c t a b heq ih =>
      rw [heq] at ih
      rcases ih with hnil | ⟨u, hu⟩
      · exact .inl hnil
      · exact .inr ⟨'\\' :: c :: u, congrArg ('\\' :: c :: ·) hu⟩
  | case2 c t _ hc =>
      rw [beq_iff_eq] at hc
      exact .inr ⟨[], by rw [hc]; rfl⟩
  | case3 c t _ _ a b heq ih =>
      rw [heq] at ih
      rcases ih with hnil | ⟨u, hu⟩
      · exact .inl hnil
      · exact .inr ⟨c :: u, congrArg (c :: ·) hu⟩
  | case4 => exact .inl rfl

theorem parts_nil (a : Text) : Parts a [] := fun d hd => absurd hd (by simp)

theorem parts_stringRest {q : Char} (hq : isQuote q = true) (a t : Text) :
    Parts (a ++ (stringRest q t).1) (stringRest q t).2 := by
  rcases stringRest_cases q t with ⟨body, rest, -, hclosed⟩ | ⟨hopen, hline⟩
  · rw [hclosed, ← List.append_assoc]
    exact parts_of_last (quote_ne hq).2.2.2 (quote_ne hq).2.2.1
  · rw [hopen]
    refine parts_of_breaks fun c hc => ?_
    rw [hline c hc]
    decide

/-- Only a dot of its own makes a property of the word behind it. -/
theorem parts_lexeme (t : Text) : (lexeme t).1 = "." ∨ Parts (lexeme t).1 (lexeme t).2 := by
  fun_cases lexeme t with
  | case1 => exact .inr (parts_nil _)
  | case2 t a b heq =>
      have hparts := parts_lineComment ('/' :: '/' :: a) t
      rw [heq] at hparts
      exact .inr hparts
  | case3 t a b heq =>
      have hlast := blockComment_last t
      rw [heq] at hlast
      rcases hlast with rfl | ⟨front, rfl⟩
      · exact .inr (parts_nil _)
      · exact .inr (parts_of_last (a := '/' :: '*' :: front) (by decide) (by decide))
  | case4 c t _ _ hq a b heq =>
      have hparts := parts_stringRest hq [c] t
      rw [heq] at hparts
      exact .inr hparts
  | case5 c t _ _ _ _ a b heq =>
      have hlast := templateBody_last t
      rw [heq] at hlast
      rcases hlast with rfl | ⟨front, rfl⟩
      · exact .inr (parts_nil _)
      · exact .inr (parts_of_last (a := c :: front) (by decide) (by decide))
  | case6 c t _ _ _ _ _ a b heq =>
      have hbreaks := breaks_word t
      rw [heq] at hbreaks
      exact .inr (parts_of_breaks hbreaks)
  | case7 c t _ _ _ _ hi =>
      by_cases hdot : c = '.'
      · exact .inl (congrArg (fun d => [d]) hdot)
      · exact .inr (parts_of_last (a := []) (by simpa using hi) hdot)

/-! ## Scanning in step -/

/-- Scanning has come to a place in the text where the automaton is ready for the rest, and where a word
    starts anew unless it is a property. -/
structure InStep (front t : Text) (property : Bool) : Prop where
  ready : (Mode.after front).Ready t
  parts : property = false → Parts front t

/-- At the beginning of a text, scanning and the automaton are in step. -/
theorem inStep_nil (t : Text) : InStep [] t false where
  ready := Mode.ready_code t
  parts _ := fun _ _ _ c hc => absurd hc (by simp)

theorem Mode.after_append (a b : Text) : after (a ++ b) = (after a).read b := Mode.read_append _ a b

/-- **A lexeme that is left in the text** keeps scanning in step. -/
theorem InStep.pass {front t : Text} {property : Bool} (h : InStep front t property) (hne : t ≠ []) :
    InStep (front ++ (lexeme t).1) (lexeme t).2 ((lexeme t).1 == ".") where
  ready := by
    rw [Mode.after_append]
    exact keeps_lexeme _ t h.ready
  parts hp := by
    have hfull : (lexeme t).1 ≠ [] := by
      intro hnil
      have hlt := lexeme_rest_lt hne
      have happend := congrArg List.length (lexeme_append t)
      rw [hnil, List.nil_append] at happend
      omega
    rcases parts_lexeme t with hdot | hparts
    · rw [hdot] at hp
      exact absurd hp (by decide)
    · exact hparts.append hfull front

/-! ## Clauses -/

theorem ClauseRead.clause_link_join (text : Text) (r : ClauseRead) :
    (r.join text).clause ++ (r.join text).link = text ++ (r.clause ++ r.link) := by
  rw [join, List.append_assoc]

theorem ClauseRead.clause_link_hold (text : Text) (r : ClauseRead) :
    (r.hold text).clause ++ (r.hold text).link = text ++ (r.clause ++ r.link) := by
  unfold hold
  split
  · rename_i hc
    rw [List.isEmpty_iff.mp hc]
    rfl
  · exact clause_link_join text r

theorem ClauseRead.rest_hold (text : Text) (r : ClauseRead) : (r.hold text).rest = r.rest := by
  unfold hold
  split <;> rfl

/-- Trivia and a character that is code by itself leave the automaton in code. -/
theorem read_trivia_cons {m : Mode} {t rest : Text} {c : Char} (hm : m.Ready t)
    (h : (trivia t).2 = c :: rest) (hc : Mode.ofCode c = .code) : m.read ((trivia t).1 ++ [c]) = .code := by
  have hready := keeps_trivia m t hm
  rw [h] at hready
  rw [Mode.read_append, Mode.read_cons, hready.next, hc]
  rfl

/-- A text that ends in code, in front of more. -/
theorem Mode.ready_read_append {m : Mode} {text a b : Text} (h : m.read text = .code)
    (hready : (Mode.code.read a).Ready b) : (m.read (text ++ a)).Ready b := by
  rw [Mode.read_append, h]
  exact hready

/-- Behind a clause that was read the automaton is ready for the rest. -/
theorem ready_readClause? {depth : Nat} {seen : Bool} {t : Text} {r : ClauseRead} {m : Mode}
    (hm : m.Ready t) (h : readClause? depth seen t = some r) :
    (m.read (r.clause ++ r.link)).Ready r.rest := by
  fun_induction readClause? depth seen t generalizing r m
  case case1 => exact absurd h (by simp)
  case case2 t c rest heq blanks hc ih =>
      obtain ⟨r', hr, rfl⟩ := Option.map_eq_some_iff.mp h
      rw [beq_iff_eq] at hc
      subst hc
      rw [ClauseRead.clause_link_hold, ClauseRead.rest_hold]
      exact Mode.ready_read_append (read_trivia_cons hm heq rfl) (ih (Mode.ready_code rest) hr)
  case case3 => exact absurd h (by simp)
  case case4 t c rest heq blanks _ hc d ih =>
      obtain ⟨r', hr, rfl⟩ := Option.map_eq_some_iff.mp h
      rw [beq_iff_eq] at hc
      subst hc
      rw [ClauseRead.clause_link_join]
      exact Mode.ready_read_append (read_trivia_cons hm heq rfl) (ih (Mode.ready_code rest) hr)
  case case5 t c rest heq blanks _ _ hc ih =>
      obtain ⟨r', hr, rfl⟩ := Option.map_eq_some_iff.mp h
      have hcode : Mode.ofCode c = .code := by
        rw [Bool.or_eq_true, beq_iff_eq, beq_iff_eq] at hc
        rcases hc with rfl | rfl <;> rfl
      rw [ClauseRead.clause_link_join]
      exact Mode.ready_read_append (read_trivia_cons hm heq hcode) (ih (Mode.ready_code rest) hr)
  case case6 t c rest heq blanks _ _ _ hc name hn =>
      obtain rfl := Option.some.inj h
      have hname : m.read (blanks ++ name) = .code := by
        rw [show blanks ++ name = blanks ++ [c] ++ (word rest).1 by simp [name], Mode.read_append,
          read_trivia_cons hm heq (Mode.ofCode_of_isIdent hc), read_word fun d => isIdent_of_mem_word]
      show (m.read (blanks ++ name)).Ready _
      rw [hname]
      exact Mode.ready_code _
  case case7 t c rest heq blanks _ _ _ hc name hn ih =>
      obtain ⟨r', hr, rfl⟩ := Option.map_eq_some_iff.mp h
      have hname : m.read (blanks ++ name) = .code := by
        rw [show blanks ++ name = blanks ++ [c] ++ (word rest).1 by simp [name], Mode.read_append,
          read_trivia_cons hm heq (Mode.ofCode_of_isIdent hc), read_word fun d => isIdent_of_mem_word]
      rw [ClauseRead.clause_link_join]
      exact Mode.ready_read_append hname (ih (Mode.ready_code _) hr)
  case case8 => exact absurd h (by simp)

/-! ## Sites -/

/-- The reader of the modifier stays in step. -/
theorem keeps_typeModifier : Keeps fun t => ((typeModifier t).1.getD [], (typeModifier t).2) := by
  intro m t h
  show (m.read ((typeModifier t).1.getD [])).Ready (typeModifier t).2
  unfold typeModifier
  split
  · dsimp only
    split
    · exact h
    · rw [Option.getD_some, Mode.read_append]
      exact keeps_trivia _ _ (keeps_word m t h)
  · exact h

/-- What follows the string of an import for effects alone is code, and no word. -/
theorem statementEnd_spec (t : Text) :
    Mode.code.read (statementEnd t).1 = .code ∧
      ((statementEnd t).1 = [] ∨ ∃ a c, (statementEnd t).1 = a ++ [c] ∧ (c = ';' ∨ c = '\n')) := by
  have hmark : (semicolon t).1 = [] ∨ (semicolon t).1 = [';'] := by
    unfold semicolon
    split
    · exact .inr rfl
    · exact .inl rfl
  have hending : ∀ u,
      (lineBreak u).1 = [] ∨ (lineBreak u).1 = ['\r', '\n'] ∨ (lineBreak u).1 = ['\n'] := by
    intro u
    unfold lineBreak
    split
    · exact .inr (.inl rfl)
    · exact .inr (.inr rfl)
    · exact .inl rfl
  have hall : (statementEnd t).1 = (semicolon t).1 ++ (lineBreak (semicolon t).2).1 := rfl
  rw [hall]
  rcases hmark with hm | hm <;> rcases hending (semicolon t).2 with he | he | he <;> rw [hm, he]
  · exact ⟨rfl, .inl rfl⟩
  · exact ⟨rfl, .inr ⟨['\r'], '\n', rfl, .inr rfl⟩⟩
  · exact ⟨rfl, .inr ⟨[], '\n', rfl, .inr rfl⟩⟩
  · exact ⟨rfl, .inr ⟨[], ';', rfl, .inl rfl⟩⟩
  · exact ⟨rfl, .inr ⟨[';', '\r'], '\n', rfl, .inr rfl⟩⟩
  · exact ⟨rfl, .inr ⟨[';'], '\n', rfl, .inr rfl⟩⟩

/-- What the automaton makes of a site and of the text behind it. -/
structure SiteInStep (m : Mode) (s : Site) (rest : Text) : Prop where
  token : ∃ lead q, s.head ++ s.clause ++ s.link = lead ++ [q] ∧ s.tail.head? = some q ∧
    (m.read lead).Token q s.specifier
  ready : (m.read s.text).Ready rest
  parts : Parts s.text rest

/-- A site whose specifier is a terminated string, and which ends in code, is in step. -/
theorem siteInStep_of_token {m : Mode} {s : Site} {rest : Text} {q : Char} (lead tail : Text)
    (hlead : s.head ++ s.clause ++ s.link = lead ++ [q]) (htail : s.tail = q :: tail)
    (htoken : (m.read lead).Token q s.specifier) (hcode : Mode.code.read tail = .code)
    (hparts : Parts (q :: tail) rest) : SiteInStep m s rest := by
  have htext : s.text = lead ++ (q :: s.specifier ++ [q]) ++ tail := by
    rw [Site.text, hlead, htail]
    simp
  refine ⟨⟨lead, q, hlead, by rw [htail]; rfl, htoken⟩, ?_, ?_⟩
  · rw [htext, Mode.read_append, Mode.read_append, htoken.read, hcode]
    exact Mode.ready_code rest
  · rw [Site.text, htail]
    exact hparts.append (by simp) _

section

variable {m : Mode} {head t rest : Text} {s : Site} (hm : (m.read head).Ready t)

include hm

/-- A static site is one for the automaton. -/
theorem siteInStep_of_staticSite? {keyword : Keyword}
    (h : staticSite? keyword head t = some (s, rest)) : SiteInStep m s rest := by
  obtain ⟨read, q, specifier, hread, hq, rfl⟩ := exists_of_staticSite? h
  have hmodifier := keeps_typeModifier _ t hm
  have hclause := ready_readClause? hmodifier hread
  have htoken := token_of_quoted? (keeps_trivia _ read.rest hclause) hq
  obtain ⟨-, -, hdot, hident⟩ := quote_ne htoken.isQuote
  refine siteInStep_of_token (q := q) (head ++ (typeModifier t).1.getD [] ++
    (read.clause ++ read.link) ++ (trivia read.rest).1) [] (by simp) rfl ?_ rfl
    (parts_of_last (a := []) hident hdot)
  simpa only [Mode.read_append] using htoken

/-- A dynamic import is one for the automaton. -/
theorem siteInStep_of_dynamicSite? (h : dynamicSite? head t = some (s, rest)) :
    SiteInStep m s rest := by
  obtain ⟨q, specifier, after, hq, hclose, rfl⟩ := exists_of_dynamicSite? h
  have htoken := token_of_quoted? (keeps_trivia _ t hm) hq
  refine siteInStep_of_token (q := q) (head ++ (trivia t).1) ((trivia after).1 ++ [')']) (by simp)
    rfl ?_ (read_trivia_cons (Mode.ready_code after) hclose rfl)
    (parts_of_last (a := q :: (trivia after).1) (by decide) (by decide))
  rw [Mode.read_append]
  exact htoken

/-- An import for its effects is one for the automaton. -/
theorem siteInStep_of_sideEffectSite? (h : sideEffectSite? head t = some (s, rest)) :
    SiteInStep m s rest := by
  obtain ⟨q, specifier, after, hq, rfl, rfl⟩ := exists_of_sideEffectSite? h
  have htoken := token_of_quoted? hm hq
  obtain ⟨-, -, hdot, hident⟩ := quote_ne htoken.isQuote
  obtain ⟨hcode, hend⟩ := statementEnd_spec after
  refine siteInStep_of_token (q := q) head (statementEnd after).1 (by simp) rfl htoken hcode ?_
  rcases hend with hnil | ⟨a, c, hc, rfl | rfl⟩
  · rw [hnil]
    exact parts_of_last (a := []) hident hdot
  · rw [hc]
    exact parts_of_last (a := q :: a) (by decide) (by decide)
  · rw [hc]
    exact parts_of_last (a := q :: a) (by decide) (by decide)

end

/-- **A site that is read after a keyword** of code is in step. -/
theorem siteInStep_of_siteAfter? {m : Mode} {k : Keyword} {t rest : Text} {s : Site}
    (hm : m.read k.text = .code) (h : siteAfter? k t = some (s, rest)) : SiteInStep m s rest := by
  have hblanks : (m.read (k.text ++ (trivia t).1)).Ready (trivia t).2 := by
    rw [Mode.read_append, hm]
    exact keeps_trivia _ t (Mode.ready_code t)
  cases siteRead_of_siteAfter? h with
  | @dynamic after hnext hsite =>
      refine siteInStep_of_dynamicSite? ?_ hsite
      rw [hnext] at hblanks
      rw [Mode.read_append, Mode.read_cons, hblanks.next]
      exact Mode.ready_code after
  | sideEffect _ _ hsite => exact siteInStep_of_sideEffectSite? hblanks hsite
  | imported _ _ hsite => exact siteInStep_of_staticSite? hblanks hsite
  | reexported _ hsite => exact siteInStep_of_staticSite? hblanks hsite

/-! ## The sites of a text -/

theorem lexeme_of_isIdent {c : Char} (h : isIdent c = true) (t : Text) :
    lexeme (c :: t) = (c :: (word t).1, (word t).2) := by
  have hq : isQuote c = false := by
    simp [isQuote, ne_of_isIdent h (d := '\'') (by decide), ne_of_isIdent h (d := '"') (by decide)]
  have ht : (c == templateMark) = false := beq_eq_false_iff_ne.mpr (ne_of_isIdent h (by decide))
  rw [lexeme_of_ne_slash (ne_of_isIdent h (by decide)), hq, ht, h]
  rfl

/-- Keywords are made of identifier characters. -/
theorem isIdent_of_mem_keyword {k : Keyword} {c : Char} (h : c ∈ k.text) : isIdent c = true := by
  cases k <;> revert c <;> decide

/-- A keyword is a whole word. -/
theorem breaks_of_keyword? {t : Text} {k : Keyword} (h : keyword? (lexeme t).1 = some k) :
    Breaks (lexeme t).2 := by
  have htext := text_of_keyword? h
  have happend := lexeme_append t
  cases t with
  | nil => exact fun c hc => absurd hc (by simp [lexeme])
  | cons c t =>
      have hc : isIdent c = true := by
        rw [← htext] at happend
        obtain ⟨d, w, hw⟩ : ∃ d w, k.text = d :: w := by cases k <;> exact ⟨_, _, rfl⟩
        rw [hw] at happend
        obtain ⟨rfl, -⟩ := List.cons.inj happend
        exact isIdent_of_mem_keyword (k := k) (by rw [hw]; simp)
      rw [lexeme_of_isIdent hc]
      exact breaks_word t

/-- A site is one of the keyword that is before it. -/
theorem keyword_of_siteAfter? {k : Keyword} {t rest : Text} {s : Site}
    (h : siteAfter? k t = some (s, rest)) : s.keyword = k := by
  cases siteRead_of_siteAfter? h with
  | dynamic _ hsite =>
      obtain ⟨q, specifier, after, -, -, rfl⟩ := exists_of_dynamicSite? hsite
      rfl
  | sideEffect _ _ hsite =>
      obtain ⟨q, specifier, after, -, -, rfl⟩ := exists_of_sideEffectSite? hsite
      rfl
  | imported _ _ hsite =>
      obtain ⟨read, q, specifier, -, -, rfl⟩ := exists_of_staticSite? hsite
      rfl
  | reexported _ hsite =>
      obtain ⟨read, q, specifier, -, -, rfl⟩ := exists_of_staticSite? hsite
      rfl

/-- The word stands in code at the offset, as a whole word and not as a property. -/
def WordAt (t : Text) (offset : Nat) (w : Text) : Prop :=
  ∃ before after : Text, t = before ++ w ++ after ∧ before.byteSize = offset ∧
    (∀ c ∈ w, isIdent c = true) ∧ (Mode.after before).InCode ∧
    (∀ c ∈ before.getLast?, isIdent c = false ∧ c ≠ '.') ∧ Breaks after

/-- The range is the body of a terminated string. -/
def StringAt (t : Text) (range : Range) : Prop :=
  ∃ before body after : Text, ∃ q : Char, t = before ++ (q :: body ++ q :: after) ∧
    range = Range.at (Text.byteSize (before ++ [q])) body ∧ (Mode.after before).Token q body

/-- The place of a site: its keyword is a word of code, and its specifier a terminated string. -/
def Located.Sound (t : Text) (l : Located) : Prop :=
  WordAt t l.span.start l.site.keyword.text ∧ StringAt t l.specifier

/-- **A site that scanning reads** is in its place, and leaves scanning in step. -/
theorem InStep.site {front t rest : Text} {s : Site} (h : InStep front t false)
    (hs : siteAt? false t = some (s, rest)) :
    InStep (front ++ s.text) rest false ∧ (s.locate front.byteSize).Sound (front ++ t) := by
  obtain ⟨k, hk, hsite⟩ := Option.bind_eq_some_iff.mp hs
  have htext := text_of_keyword? hk
  have hword : t = k.text ++ (lexeme t).2 := by rw [htext, lexeme_append]
  obtain ⟨c, w, hcons⟩ : ∃ c w, k.text = c :: w := by cases k <;> exact ⟨_, _, rfl⟩
  have hc : isIdent c = true := isIdent_of_mem_keyword (k := k) (by rw [hcons]; simp)
  -- The keyword is read in code.
  have hready : (Mode.after front).Ready (c :: (w ++ (lexeme t).2)) := by
    have hready := h.ready
    rwa [hword, hcons] at hready
  have hcode : (Mode.after front).read k.text = .code := by
    rw [Mode.Ready.read (b := (lexeme t).2) (by rw [← hword]; exact h.ready) (by rw [hcons]; simp),
      read_word fun d hd => isIdent_of_mem_keyword hd]
  obtain ⟨⟨lead, q, hlead, htail, htoken⟩, hnext, hparts⟩ := siteInStep_of_siteAfter? hcode hsite
  obtain ⟨tail, htail⟩ := List.head?_eq_some_iff.mp htail
  have hsplit : s.text = lead ++ (q :: s.specifier ++ q :: tail) := by
    rw [Site.text, hlead, htail]
    simp
  have happend : t = s.text ++ rest := siteAt?_append hs
  have hne : s.text ≠ [] := by simp [hsplit]
  refine ⟨⟨by rw [Mode.after_append]; exact hnext, fun _ => hparts.append hne front⟩, ?_, ?_⟩
  · rw [show (s.locate front.byteSize).site.keyword = k from keyword_of_siteAfter? hsite]
    refine ⟨front, (lexeme t).2, by rw [List.append_assoc, ← hword], rfl,
      fun d => isIdent_of_mem_keyword, hready.inCode (ne_of_isIdent hc (by decide)),
      h.parts rfl c (by rw [hword, hcons]; rfl) hc, breaks_of_keyword? hk⟩
  · refine ⟨front ++ lead, s.specifier, tail ++ rest, q, ?_, ?_, ?_⟩
    · rw [happend, hsplit]
      simp
    · rw [List.append_assoc, ← hlead]
      simp [Site.locate, Range.at, Text.byteSize_append, Nat.add_assoc]
    · rw [Mode.after_append]
      exact htoken

/-- **Scanning in step finds sites only**, wherever in the text it starts. -/
theorem sound_scanFrom {front t : Text} {property : Bool} (h : InStep front t property) :
    ∀ l ∈ Segments.located.go front.byteSize (scanFrom property t).sites, l.Sound (front ++ t) := by
  fun_induction scanFrom property t generalizing front with
  | case1 => exact fun l hl => absurd hl (by simp [Segments.located.go])
  | case2 property t hne site rest hs hlt ih =>
      obtain ⟨rfl, -⟩ := exists_of_siteAt? hs
      obtain ⟨hnext, hsound⟩ := h.site hs
      rw [Segments.go_consSite]
      intro l hl
      rcases List.mem_cons.mp hl with rfl | hl
      · exact hsound
      · rw [siteAt?_append hs, ← List.append_assoc]
        exact ih hnext l (by rwa [Text.byteSize_append])
  | case3 property t hne hs hlt ih =>
      have hih := ih (h.pass hne)
      rw [List.append_assoc, lexeme_append] at hih
      rwa [Segments.go_prepend, ← Text.byteSize_append]

/-- **No site starts inside a comment, a string or a template.** Whatever the text is, each site that is
    found in it starts with a keyword in code, which is a whole word and no property, and its specifier
    is the body of a terminated string. -/
theorem sound_located (t : Text) : ∀ l ∈ (scan t).located, l.Sound t :=
  sound_scanFrom (inStep_nil t)

/-- A statement that is given up before a string with an escaped quote, a template, a comment and a
    property; only what follows them is a site. -/
def givenUp : Text :=
  "import a 'it\\'s import(' `import('b')` /* import 'c' */ x.import('d'); import( // e\n 'f' )"

/-- The statement is given up, and of what looks like an import behind it only the last one is found. -/
theorem located_givenUp : (scan givenUp).located.map (·.span.start) = [71] := by
  rw [show givenUp = _ from String.toList_ofList]
  decide +kernel

/-- The one site of the text starts with its last `import`. -/
theorem sound_located_givenUp : ∃ l ∈ (scan givenUp).located, l.span.start = 71 ∧ l.Sound givenUp := by
  have hmem : 71 ∈ (scan givenUp).located.map (·.span.start) := by
    rw [located_givenUp]
    exact List.mem_singleton_self 71
  obtain ⟨l, hl, hstart⟩ := List.mem_map.mp hmem
  exact ⟨l, hl, hstart, sound_located givenUp l hl⟩

end Typings.Import
