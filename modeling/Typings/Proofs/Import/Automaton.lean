import Mathlib.Data.List.TakeWhile
import Typings.Proofs.Import.Forward

/-!
# `Automaton` — a plain lexer to judge the scanner by

The automaton reads a text character by character and knows of each whether it belongs to code, to a
comment, to a quoted string or to a template literal.  It looks at nothing but its mode and one
character, while the reading functions look ahead, take several characters at once and give up.  They
stay in step with it: whatever they take, the automaton goes on with the rest as it would in code.

* `Mode`, `Mode.next`, `Mode.after`: the automaton.
* `Mode.Ready`: the automaton goes on with a text as it would in code.
* `Keeps`: a reading function stays in step; `keeps_word`, `keeps_trivia`, `keeps_lexeme`.
* `Mode.Token`: a terminated string; `token_of_quoted?`.
-/

namespace Typings.Import

/-! ## The automaton -/

/-- Where the automaton is between two characters. -/
inductive Mode where
  | code
  /-- In code, behind a slash that may open a comment. -/
  | slash
  | lineComment
  | blockComment
  /-- In a block comment, behind a star that may close it. -/
  | star
  | quoted (quote : Char)
  /-- In a string, behind a backslash that takes the next character along. -/
  | quotedEscape (quote : Char)
  | template
  | templateEscape
deriving DecidableEq, Repr

namespace Mode

/-- The mode after a character of code. -/
def ofCode (c : Char) : Mode :=
  if c == '/' then .slash
  else if isQuote c then .quoted c
  else if c == templateMark then .template
  else .code

/-- The mode after one more character.  A string also ends at a line feed that no backslash takes
    along. -/
def next : Mode → Char → Mode
  | .code, c => ofCode c
  | .slash, c => if c == '/' then .lineComment else if c == '*' then .blockComment else ofCode c
  | .lineComment, c => if c == '\n' then .code else .lineComment
  | .blockComment, c => if c == '*' then .star else .blockComment
  | .star, c => if c == '/' then .code else if c == '*' then .star else .blockComment
  | .quoted q, c =>
    if c == '\\' then .quotedEscape q else if c == q || c == '\n' then .code else .quoted q
  | .quotedEscape q, _ => .quoted q
  | .template, c =>
    if c == '\\' then .templateEscape else if c == templateMark then .code else .template
  | .templateEscape, _ => .template

/-- The mode after some characters. -/
def read (m : Mode) (t : Text) : Mode := t.foldl next m

/-- The mode behind a text. -/
def after (t : Text) : Mode := Mode.code.read t

/-- What is read next belongs to code, unless it makes a slash before it open a comment. -/
def InCode (m : Mode) : Prop := m = .code ∨ m = .slash

/-- What is read next belongs to a string with the quote. -/
def InString (q : Char) (m : Mode) : Prop := m = .quoted q ∨ m = .quotedEscape q

@[simp] theorem read_nil (m : Mode) : m.read [] = m := rfl

@[simp] theorem read_cons (m : Mode) (c : Char) (t : Text) : m.read (c :: t) = (m.next c).read t := rfl

/-- The automaton reads two texts one after the other. -/
@[simp] theorem read_append (m : Mode) (a b : Text) : m.read (a ++ b) = (m.read a).read b :=
  List.foldl_append

theorem ofCode_of_isIdent {c : Char} (h : isIdent c = true) : ofCode c = .code := by
  have hs : (c == '/') = false := beq_eq_false_iff_ne.mpr (ne_of_isIdent h (by decide))
  have ht : (c == templateMark) = false := beq_eq_false_iff_ne.mpr (ne_of_isIdent h (by decide))
  have hq : isQuote c = false := by
    simp [isQuote, ne_of_isIdent h (d := '\'') (by decide), ne_of_isIdent h (d := '"') (by decide)]
  rw [ofCode, hs, hq, ht]
  rfl

theorem ofCode_of_isQuote {c : Char} (h : isQuote c = true) : ofCode c = .quoted c := by
  have hs : (c == '/') = false := by
    rw [beq_eq_false_iff_ne]
    rintro rfl
    exact absurd h (by decide)
  rw [ofCode, hs, h]
  rfl

theorem ofCode_of_isAsciiBlank {c : Char} (h : Text.isAsciiBlank c = true) : ofCode c = .code := by
  simp only [Text.isAsciiBlank, Bool.or_eq_true, beq_iff_eq] at h
  rcases h with (((rfl | rfl) | rfl) | rfl) | rfl <;> rfl

/-! ## Going on as in code -/

/-- The automaton goes on with the text as it would in code: it is in code, without a slash that the text
    makes a comment of, or the text starts with the line feed that brings it back. -/
def Ready (m : Mode) (t : Text) : Prop :=
  ∀ c u, t = c :: u →
    m = .code ∨ (m = .slash ∧ c ≠ '/' ∧ c ≠ '*') ∨ (c = '\n' ∧ m.next c = .code)

/-- In code the automaton is ready for every text. -/
theorem ready_code (t : Text) : Ready .code t := fun _ _ _ => .inl rfl

/-- In every mode the automaton is ready for nothing. -/
theorem ready_nil (m : Mode) : m.Ready [] := fun _ _ h => nomatch h

/-- When it is ready, the automaton reads the next character as one of code. -/
theorem Ready.next {m : Mode} {c : Char} {t : Text} (h : m.Ready (c :: t)) : m.next c = ofCode c := by
  rcases h c t rfl with rfl | ⟨rfl, h1, h2⟩ | ⟨rfl, hm⟩
  · rfl
  · rw [Mode.next, beq_eq_false_iff_ne.mpr h1, beq_eq_false_iff_ne.mpr h2]
    rfl
  · exact hm

/-- When it is ready for anything but a line feed, the automaton is in code, or behind a slash that opens no
    comment. -/
theorem Ready.inCode {m : Mode} {c : Char} {t : Text} (h : m.Ready (c :: t)) (hc : c ≠ '\n') :
    m.InCode := by
  rcases h c t rfl with rfl | ⟨rfl, -, -⟩ | ⟨rfl, -⟩
  · exact .inl rfl
  · exact .inr rfl
  · exact absurd rfl hc

/-- What is read of such a text is read as in code. -/
theorem Ready.read {m : Mode} {a b : Text} (h : m.Ready (a ++ b)) (hne : a ≠ []) :
    m.read a = Mode.code.read a := by
  cases a with
  | nil => exact absurd rfl hne
  | cons c a => rw [read_cons, read_cons, h.next, (ready_code (c :: a)).next]

/-- What ends in code, or ends the text, leaves the automaton ready. -/
theorem ready_of_ends {m : Mode} {a b : Text} (h : b = [] ∨ m.read a = .code) : (m.read a).Ready b := by
  rcases h with rfl | hcode
  · exact ready_nil _
  · rw [hcode]
    exact ready_code b

/-- What leaves the automaton in code leaves it ready for the rest. -/
theorem ready_of_read {m : Mode} {a b : Text} (h : m.Ready (a ++ b))
    (hread : a ≠ [] → b = [] ∨ Mode.code.read a = .code) : (m.read a).Ready b := by
  by_cases hne : a = []
  · subst hne
    exact h
  · rw [h.read hne]
    exact ready_of_ends (hread hne)

end Mode

/-- A reading function, which cuts a text in two, stays in step with the automaton. -/
def Keeps (f : Text → Text × Text) : Prop :=
  ∀ m : Mode, ∀ t, m.Ready t → (m.read (f t).1).Ready (f t).2

/-! ## Words and trivia -/

/-- A word keeps the automaton in code. -/
theorem read_word {w : Text} (hw : ∀ c ∈ w, isIdent c = true) : Mode.code.read w = .code := by
  induction w with
  | nil => rfl
  | cons c w ih =>
      have hc : isIdent c = true := hw c (by simp)
      rw [Mode.read_cons, Mode.next, Mode.ofCode_of_isIdent hc]
      exact ih fun d hd => hw d (by simp [hd])

/-- A word is made of identifier characters. -/
theorem isIdent_of_mem_word {t : Text} {c : Char} (h : c ∈ (word t).1) : isIdent c = true :=
  List.mem_takeWhile_imp h

/-- A word ends where no identifier runs on. -/
theorem breaks_word (t : Text) : Breaks (word t).2 := by
  intro c hc
  have hne : (word t).2 ≠ [] := by
    intro hnil
    rw [hnil] at hc
    exact absurd hc (by simp)
  have hhead := List.head_dropWhile_not isIdent (w := hne)
  have hsome : (word t).2.head? = some ((word t).2.head hne) := List.head?_eq_some_head hne
  rw [hsome] at hc
  obtain rfl := Option.some.inj hc
  exact hhead

/-- The reader of words stays in step. -/
theorem keeps_word : Keeps word := by
  intro m t h
  rw [← word_append t] at h
  exact Mode.ready_of_read h fun _ => .inr (read_word fun c hc => isIdent_of_mem_word hc)

/-- The mode in which a comment is read, given whether a star that is not followed by a slash stands
    before the text. -/
inductive InBlock (t : Text) : Mode → Prop where
  | comment : InBlock t .blockComment
  | star (h : t.head? ≠ some '/') : InBlock t .star

/-- A character that does not close the comment with the one after it. -/
theorem InBlock.next {c : Char} {t : Text} {m : Mode} (h : InBlock (c :: t) m)
    (hclose : ∀ u, c = '*' → t = '/' :: u → False) : InBlock t (m.next c) := by
  have hstar : c = '*' → InBlock t .star := by
    intro hc
    refine .star fun hhead => ?_
    obtain ⟨u, rfl⟩ := List.head?_eq_some_iff.mp hhead
    exact hclose u hc rfl
  cases h with
  | comment =>
      by_cases hc : c = '*'
      · subst hc
        exact hstar rfl
      · rw [Mode.next, beq_eq_false_iff_ne.mpr hc]
        exact .comment
  | star hslash =>
      have hne : c ≠ '/' := by
        rintro rfl
        exact hslash rfl
      by_cases hc : c = '*'
      · subst hc
        exact hstar rfl
      · rw [Mode.next, beq_eq_false_iff_ne.mpr hne, beq_eq_false_iff_ne.mpr hc]
        exact .comment

/-- The closing mark of a comment. -/
theorem InBlock.close {t : Text} {m : Mode} (h : InBlock ('*' :: '/' :: t) m) :
    (m.next '*').next '/' = .code := by
  cases h <;> rfl

/-- A block comment that is closed leaves the automaton in code. -/
theorem read_blockComment {t : Text} {m : Mode} (h : InBlock t m) :
    (blockComment t).2 = [] ∨ m.read (blockComment t).1 = .code := by
  fun_induction blockComment t generalizing m with
  | case1 t => exact .inr h.close
  | case2 c t hclose a b heq ih =>
      have hih := ih (h.next fun u hc ht => hclose u hc ht)
      rw [heq] at hih
      exact hih
  | case3 => exact .inl rfl

/-- The mode in which the characters between two tokens are read. -/
def InTrivia (t : Text) : TriviaState → Mode → Prop
  | .code, m => m = .code
  | .line, m => m = .lineComment
  | .block, m => InBlock t m

/-- What is passed over leaves the automaton in code, unless the text ends in it. -/
theorem read_triviaFrom {s : TriviaState} {t : Text} {m : Mode} (h : InTrivia t s m) :
    (triviaFrom s t).2 = [] ∨ m.read (triviaFrom s t).1 = .code := by
  fun_induction triviaFrom s t generalizing m with
  | case1 => exact .inl rfl
  | case2 t a b heq ih =>
      obtain rfl : m = .code := h
      have hih := ih (m := .lineComment) rfl
      rw [heq] at hih
      exact hih
  | case3 t a b heq ih =>
      obtain rfl : m = .code := h
      have hih := ih (m := .blockComment) .comment
      rw [heq] at hih
      exact hih
  | case4 c t _ _ hb a b heq ih =>
      obtain rfl : m = .code := h
      have hih := ih (m := .code) rfl
      rw [heq] at hih
      rw [Mode.read_cons, Mode.next, Mode.ofCode_of_isAsciiBlank hb]
      exact hih
  | case5 => exact .inr h
  | case6 t a b heq ih =>
      -- The line feed ends a comment, and with it the automaton is back in code.
      obtain rfl : m = .lineComment := h
      have hih := ih (m := .code) rfl
      rw [heq] at hih
      exact hih
  | case7 c t hc a b heq ih =>
      obtain rfl : m = .lineComment := h
      have hih := ih (m := .lineComment) rfl
      rw [heq] at hih
      rw [Mode.read_cons, Mode.next, beq_eq_false_iff_ne.mpr fun he => hc he]
      exact hih
  | case8 t a b heq ih =>
      have hih := ih (m := .code) rfl
      rw [heq] at hih
      rw [Mode.read_cons, Mode.read_cons, InBlock.close h]
      exact hih
  | case9 c t hclose a b heq ih =>
      have hih := ih (m := m.next c) (InBlock.next h fun u hc ht => hclose u hc ht)
      rw [heq] at hih
      exact hih

/-- The reader of blanks and comments stays in step. -/
theorem keeps_trivia : Keeps trivia := by
  intro m t h
  rw [← trivia_append t] at h
  exact Mode.ready_of_read h fun _ => read_triviaFrom (s := .code) rfl

/-! ## Strings and templates -/

theorem quote_ne {q : Char} (hq : isQuote q = true) :
    q ≠ '\\' ∧ q ≠ '\n' ∧ q ≠ '.' ∧ isIdent q = false := by
  simp only [isQuote, Bool.or_eq_true, beq_iff_eq] at hq
  rcases hq with rfl | rfl <;> decide

/-- The body of a string is read within the string, up to its end if the text goes on. -/
theorem read_stringBody (q : Char) (t : Text) :
    (∀ u, u <+: (stringBody q t).1 → ((Mode.quoted q).read u).InString q) ∧
      ((stringBody q t).2 = [] ∨ (Mode.quoted q).read (stringBody q t).1 = .quoted q) := by
  fun_induction stringBody q t with
  | case1 c t a b heq ih =>
      rw [heq] at ih
      obtain ⟨hinside, hend⟩ := ih
      refine ⟨fun u hu => ?_, hend⟩
      -- A beginning ends before the backslash, behind it, or behind the character it takes along.
      cases u with
      | nil => exact .inl rfl
      | cons d u =>
          obtain ⟨rfl, htail⟩ := List.cons_prefix_cons.mp hu
          clear hu
          cases u with
          | nil => exact .inr rfl
          | cons e u => exact hinside u (List.cons_prefix_cons.mp htail).2
  | case2 c t _ hstop =>
      refine ⟨fun u hu => ?_, .inr rfl⟩
      rw [List.prefix_nil.mp hu]
      exact .inl rfl
  | case3 c t hpair hgo a b heq ih =>
      rw [heq] at ih
      obtain ⟨hinside, hend⟩ := ih
      rw [Bool.not_eq_true] at hgo
      by_cases hc : c = '\\'
      · -- A backslash at the end of the text takes nothing along.
        subst hc
        cases t with
        | cons d t => exact absurd rfl (hpair d t rfl)
        | nil =>
            obtain ⟨rfl, rfl⟩ := Prod.mk.inj heq
            refine ⟨fun u hu => ?_, .inl rfl⟩
            cases u with
            | nil => exact .inl rfl
            | cons e u =>
                obtain ⟨rfl, htail⟩ := List.cons_prefix_cons.mp hu
                rw [List.prefix_nil.mp htail]
                exact .inr rfl
      · have hnext : (Mode.quoted q).next c = .quoted q := by
          rw [Mode.next, beq_eq_false_iff_ne.mpr hc, hgo]
          rfl
        refine ⟨fun u hu => ?_, by rw [Mode.read_cons, hnext]; exact hend⟩
        cases u with
        | nil => exact .inl rfl
        | cons e u =>
            obtain ⟨rfl, htail⟩ := List.cons_prefix_cons.mp hu
            rw [Mode.read_cons, hnext]
            exact hinside u htail
  | case4 =>
      refine ⟨fun u hu => ?_, .inl rfl⟩
      rw [List.prefix_nil.mp hu]
      exact .inl rfl

/-- The body of a string ends at its quote or at a line feed. -/
theorem stringBody_rest {q c : Char} {t u : Text} (h : (stringBody q t).2 = c :: u) :
    c = q ∨ c = '\n' := by
  fun_induction stringBody q t with
  | case1 d t a b heq ih => exact ih (by rw [heq]; exact h)
  | case2 d t _ hstop =>
      obtain ⟨rfl, -⟩ := List.cons.inj h
      simpa using hstop
  | case3 d t _ _ a b heq ih => exact ih (by rw [heq]; exact h)
  | case4 => exact absurd h (by simp)

/-- A string is closed behind its body, or it goes up to a line feed or to the end. -/
theorem stringRest_cases (q : Char) (t : Text) :
    (∃ body rest, stringBody q t = (body, q :: rest) ∧ stringRest q t = (body ++ [q], rest)) ∨
      stringRest q t = stringBody q t ∧ ∀ c ∈ (stringBody q t).2.head?, c = '\n' := by
  have hstop := @stringBody_rest q
  unfold stringRest
  split
  · next body c rest heq =>
    rw [heq]
    by_cases hc : c = q
    · subst hc
      exact .inl ⟨body, rest, rfl, if_pos (beq_self_eq_true c)⟩
    · refine .inr ⟨if_neg (mt beq_iff_eq.mp hc), fun d hd => ?_⟩
      obtain rfl := Option.some.inj hd
      exact (hstop (by rw [heq])).resolve_left hc
  · next body heq =>
    rw [heq]
    exact .inr ⟨rfl, nofun⟩

/-- The quote closes its string. -/
theorem next_quote {q : Char} (hq : isQuote q = true) : (Mode.quoted q).next q = .code := by
  rw [Mode.next, beq_eq_false_iff_ne.mpr (quote_ne hq).1]
  simp

/-- A string leaves the automaton ready for what follows it, terminated or not. -/
theorem ready_stringRest {q : Char} (hq : isQuote q = true) (t : Text) :
    ((Mode.quoted q).read (stringRest q t).1).Ready (stringRest q t).2 := by
  obtain ⟨-, hend⟩ := read_stringBody q t
  rcases stringRest_cases q t with ⟨body, rest, hbody, hclosed⟩ | ⟨hopen, hline⟩
  · rw [hbody] at hend
    have hquoted : (Mode.quoted q).read body = .quoted q := hend.resolve_left (List.cons_ne_nil _ _)
    rw [hclosed, Mode.read_append, hquoted, Mode.read_cons, next_quote hq]
    exact Mode.ready_code rest
  · rw [hopen]
    intro c u hc
    -- The line feed that ends the string brings the automaton back to code.
    obtain rfl : c = '\n' := hline c (by rw [hc]; rfl)
    rw [hend.resolve_left (by rw [hc]; exact List.cons_ne_nil _ _)]
    refine .inr (.inr ⟨rfl, ?_⟩)
    rw [Mode.next]
    simp

/-- A template that is closed leaves the automaton in code. -/
theorem read_templateBody (t : Text) :
    (templateBody t).2 = [] ∨ Mode.template.read (templateBody t).1 = .code := by
  fun_induction templateBody t with
  | case1 c t a b heq ih =>
      rw [heq] at ih
      exact ih
  | case2 c t _ hc =>
      rw [beq_iff_eq] at hc
      subst hc
      exact .inr rfl
  | case3 c t hpair hc a b heq ih =>
      rw [heq] at ih
      rw [Bool.not_eq_true] at hc
      by_cases hs : c = '\\'
      · subst hs
        cases t with
        | cons d t => exact absurd rfl (hpair d t rfl)
        | nil =>
            obtain ⟨-, rfl⟩ := Prod.mk.inj heq
            exact .inl rfl
      · rw [Mode.read_cons, Mode.next, beq_eq_false_iff_ne.mpr hs, hc]
        exact ih
  | case4 => exact .inl rfl

/-! ## Lexemes -/

/-- At the end of a line comment the automaton is ready for the line feed. -/
theorem ready_lineComment (t : Text) :
    (Mode.lineComment.read (lineComment t).1).Ready (lineComment t).2 := by
  have hread : Mode.lineComment.read (lineComment t).1 = .lineComment := by
    rw [lineComment]
    induction t with
    | nil => rfl
    | cons c t ih =>
        by_cases hc : c = '\n'
        · subst hc
          rfl
        · rw [List.takeWhile_cons_of_pos (by simpa using hc), Mode.read_cons, Mode.next,
            beq_eq_false_iff_ne.mpr hc]
          exact ih
  rw [hread]
  intro c u hc
  refine .inr (.inr ?_)
  have hhead := List.head?_dropWhile_not (· != '\n') t
  rw [show t.dropWhile (· != '\n') = c :: u from hc] at hhead
  have hline : c = '\n' := by simpa using hhead
  subst hline
  exact ⟨rfl, rfl⟩

/-- **A lexeme leaves the automaton ready** for the rest of the text. -/
theorem keeps_lexeme : Keeps lexeme := by
  intro m t h
  -- The first character decides on the mode.
  have hnext {c : Char} {t : Text} (h : m.Ready (c :: t)) (a : Text) :
      m.read (c :: a) = (Mode.ofCode c).read a := by rw [Mode.read_cons, h.next]
  fun_cases lexeme t with
  | case1 => exact h
  | case2 t a b heq =>
      have hready := ready_lineComment t
      rw [heq] at hready
      rw [hnext h]
      exact hready
  | case3 t a b heq =>
      have hends := read_blockComment (t := t) .comment
      rw [heq] at hends
      rw [hnext h]
      exact Mode.ready_of_ends hends
  | case4 c t _ _ hq a b heq =>
      have hready := ready_stringRest hq t
      rw [heq] at hready
      rw [hnext h, Mode.ofCode_of_isQuote hq]
      exact hready
  | case5 c t _ _ _ ht a b heq =>
      obtain rfl := beq_iff_eq.mp ht
      have hends := read_templateBody t
      rw [heq] at hends
      rw [hnext h]
      exact Mode.ready_of_ends hends
  | case6 c t _ _ _ _ hi a b heq =>
      have hword : Mode.code.read (word t).1 = .code := read_word fun d hd => isIdent_of_mem_word hd
      rw [heq] at hword
      rw [hnext h, Mode.ofCode_of_isIdent hi]
      exact Mode.ready_of_ends (.inr hword)
  | case7 c t hline hblock hq ht hi =>
      rw [hnext h]
      by_cases hs : c = '/'
      · -- A slash of its own: what follows it opens no comment.
        intro d u hd
        refine .inr (.inl ⟨by rw [hs]; rfl, ?_, ?_⟩)
        · rintro rfl
          exact hline u hs hd
        · rintro rfl
          exact hblock u hs hd
      · have hcode : Mode.ofCode c = .code := by
          rw [Bool.not_eq_true] at hq ht
          rw [Mode.ofCode, beq_eq_false_iff_ne.mpr hs, hq, ht]
          rfl
        rw [hcode]
        exact Mode.ready_code t

/-! ## Terminated strings -/

namespace Mode

/-- From the mode on, the automaton reads a terminated string: the quote opens it in code, the body is
    read within it, and behind the body the quote closes it. -/
structure Token (m : Mode) (q : Char) (body : Text) : Prop where
  isQuote : isQuote q = true
  opens : m.InCode
  inside : ∀ u, u <+: body → (m.read (q :: u)).InString q
  closes : m.read (q :: body) = .quoted q

/-- A terminated string leaves the automaton in code. -/
theorem Token.read {m : Mode} {q : Char} {body : Text} (h : m.Token q body) :
    m.read (q :: body ++ [q]) = .code := by
  rw [read_append, h.closes]
  exact next_quote h.isQuote

end Mode

/-- A string that is read is one for the automaton. -/
theorem token_of_quoted? {m : Mode} {t body rest : Text} {q : Char} (hm : m.Ready t)
    (h : quoted? t = some (q, body, rest)) : m.Token q body := by
  cases t with
  | nil => exact absurd h (by simp [quoted?])
  | cons c t =>
      unfold quoted? at h
      simp only at h
      split at h
      · rename_i hq
        obtain ⟨hinside, hend⟩ := read_stringBody c t
        split at h
        · rename_i body' d rest' heq
          rw [heq] at hinside hend
          split at h
          · rename_i hd
            obtain ⟨rfl, rfl, rfl⟩ : c = q ∧ body' = body ∧ rest' = rest := by simpa using h
            have hopen : m.next c = .quoted c := by rw [hm.next, Mode.ofCode_of_isQuote hq]
            refine ⟨hq, hm.inCode (quote_ne hq).2.1, fun u hu => ?_, ?_⟩
            · rw [Mode.read_cons, hopen]
              exact hinside u hu
            · rw [Mode.read_cons, hopen]
              exact hend.resolve_left (by simp)
          · exact absurd h (by simp)
        · exact absurd h (by simp)
      · exact absurd h (by simp)

end Typings.Import
